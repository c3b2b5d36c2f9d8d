import OriGateway.Foundation.Bucket
import OriGateway.Foundation.GoMap
import OriGateway.Foundation.Recent
import OriGateway.Foundation.Sha256

/-! # The webhook bridge's limiter

A bucket for each of the senders seen last, and a ceiling over all requests:
**`Limiter.admitRequest`**. -/

namespace OriGateway

open Foundation

/-- The limits of a bridge, each positive. -/
structure Limits where
  senderPerMinute : Nat
  senderBurst : Nat
  globalPerMinute : Nat
  globalBurst : Nat
  maxSenders : Nat
  positive : 0 < senderPerMinute ∧ 0 < senderBurst ∧ 0 < globalPerMinute ∧ 0 < globalBurst ∧
    0 < maxSenders

namespace Limits

def sender (l : Limits) : BucketRate :=
  ⟨l.senderPerMinute / 60, l.senderBurst, by positivity, by positivity⟩

def ceiling (l : Limits) : BucketRate :=
  ⟨l.globalPerMinute / 60, l.globalBurst, by positivity, by positivity⟩

end Limits

/-- The senders in the order they were last seen, the bucket of each, and the ceiling's. -/
structure Limiter where
  order : List Bytes
  senders : GoMap Bytes Bucket
  global : Bucket

def newLimiter (l : Limits) (now : ℚ) : Limiter := ⟨[], ∅, ⟨l.globalBurst, now⟩⟩

inductive LimitVerdict where
  | admitted
  | refusedBySender
  | refusedByGlobal
  deriving DecidableEq

structure WebhookRequest where
  sender : Bytes
  now : ℚ

namespace Limiter

/-- Return a token taken for a request that was then refused elsewhere. -/
def refund (r : BucketRate) (b : Bucket) : Bucket := { b with tokens := min r.burst (b.tokens + 1) }

def take (r : BucketRate) (b : Bucket) (now : ℚ) : Bucket × Bool :=
  if b.level r now < 1 then (⟨b.level r now, now⟩, false) else (⟨b.level r now - 1, now⟩, true)

variable (l : Limits) (hashKey : Bytes)

def keyOf (sender : Bytes) : Bytes := hmacSha256 hashKey sender

/-- Drop the sender seen least recently when there are as many as there may be. -/
def evict (s : Limiter) : Limiter :=
  if h : l.maxSenders ≤ s.order.length then
    let oldest := s.order.getLast (List.ne_nil_of_length_pos (l.positive.2.2.2.2.trans_le h))
    { s with order := s.order.dropLast, senders := s.senders.erase oldest }
  else s

/-- Put a sender first, with a full bucket if it has none. -/
def touch (s : Limiter) (key : Bytes) (now : ℚ) : Limiter × Bucket :=
  match s.senders.lookup key with
  | some own => ({ s with order := key :: s.order.erase key }, own)
  | none =>
    let s := s.evict l
    let fresh := ⟨l.senderBurst, now⟩
    ({ s with order := key :: s.order, senders := s.senders.insert key fresh }, fresh)

/-- Charge a request to its sender and to all. -/
def admitRequest (s : Limiter) (req : WebhookRequest) : Limiter × LimitVerdict :=
  if req.sender = [] then
    let global := take l.ceiling s.global req.now
    ({ s with global := global.1 }, if global.2 then .admitted else .refusedByGlobal)
  else
    let key := keyOf hashKey req.sender
    let (s, own) := s.touch l key req.now
    let own := take l.sender own req.now
    if !own.2 then ({ s with senders := s.senders.insert key own.1 }, .refusedBySender)
    else
      let global := take l.ceiling s.global req.now
      if !global.2 then
        ({ s with senders := s.senders.insert key (refund l.sender own.1), global := global.1 },
          .refusedByGlobal)
      else ({ s with senders := s.senders.insert key own.1, global := global.1 }, .admitted)

def after (s : Limiter) (req : WebhookRequest) : Limiter := (s.admitRequest l hashKey req).1

/-- The bucket a request of a sender finds: its own, or a full one. -/
def found (s : Limiter) (key : Bytes) (now : ℚ) : Bucket :=
  (s.senders.lookup key).getD ⟨l.senderBurst, now⟩

/-- The sender that a request of another drives out. -/
def evicted (s : Limiter) (key : Bytes) : Option Bytes :=
  if (s.senders.lookup key).isSome ∨ s.order.length < l.maxSenders then none else s.order.getLast?

/-! ## What a request does -/

section Touch

variable {l : Limits} {s : Limiter} {key : Bytes} {now : ℚ}

theorem evict_order (s : Limiter) : (s.evict l).order
    = if l.maxSenders ≤ s.order.length then s.order.dropLast else s.order := by
  unfold evict
  split <;> rfl

theorem touch_global : (s.touch l key now).1.global = s.global := by
  unfold touch evict
  split
  · rfl
  · dsimp only
    split <;> rfl

theorem touch_snd : (s.touch l key now).2 = s.found l key now := by
  unfold touch found
  cases s.senders.lookup key <;> rfl

theorem touch_order : (s.touch l key now).1.order
    = key :: if (s.senders.lookup key).isSome then s.order.erase key else (s.evict l).order := by
  unfold touch
  cases s.senders.lookup key <;> rfl

theorem lookup_touch {k : Bytes} (hk : k ≠ key) : (s.touch l key now).1.senders.lookup k
    = if s.evicted l key = some k then none else s.senders.lookup k := by
  unfold touch evicted
  cases s.senders.lookup key with
  | some own => simp
  | none =>
    dsimp only
    rw [Finmap.lookup_insert_of_ne _ hk]
    unfold evict
    by_cases hfull : l.maxSenders ≤ s.order.length
    · rw [dif_pos hfull, lookup_erase_ite, List.getLast?_eq_some_getLast
        (List.ne_nil_of_length_pos (l.positive.2.2.2.2.trans_le hfull))]
      simp [Nat.not_lt.mpr hfull, eq_comm]
    · simp [dif_neg hfull, Nat.lt_of_not_le hfull]

end Touch

/-- **What a request of a sender comes to**: what becomes of its bucket and the ceiling. -/
inductive Drew (s s' : Limiter) (key : Bytes) (now : ℚ) : LimitVerdict → Bucket → Prop where
  | refusedBySender (hown : (s.found l key now).level l.sender now < 1)
      (hglobal : s'.global = s.global) :
      Drew s s' key now .refusedBySender ⟨(s.found l key now).level l.sender now, now⟩
  | refusedByGlobal (hglobal : s'.global = ⟨s.global.level l.ceiling now, now⟩) :
      Drew s s' key now .refusedByGlobal
        (refund l.sender ⟨(s.found l key now).level l.sender now - 1, now⟩)
  | admitted (hown : 1 ≤ (s.found l key now).level l.sender now)
      (hceiling : 1 ≤ s.global.level l.ceiling now)
      (hglobal : s'.global = ⟨s.global.level l.ceiling now - 1, now⟩) :
      Drew s s' key now .admitted ⟨(s.found l key now).level l.sender now - 1, now⟩

theorem take_cases (r : BucketRate) (b : Bucket) (now : ℚ) :
    b.level r now < 1 ∧ take r b now = (⟨b.level r now, now⟩, false) ∨
      1 ≤ b.level r now ∧ take r b now = (⟨b.level r now - 1, now⟩, true) := by
  unfold take
  by_cases h : b.level r now < 1
  · exact .inl ⟨h, if_pos h⟩
  · exact .inr ⟨le_of_not_gt h, if_neg h⟩

variable {l hashKey} {s : Limiter} {req : WebhookRequest}

theorem admit_anonymous (h : req.sender = []) : (s.after l hashKey req).order = s.order ∧
    (s.after l hashKey req).senders = s.senders ∧
    (((s.admitRequest l hashKey req).2 = .admitted ∧ 1 ≤ s.global.level l.ceiling req.now ∧
        (s.after l hashKey req).global = ⟨s.global.level l.ceiling req.now - 1, req.now⟩) ∨
      ((s.admitRequest l hashKey req).2 = .refusedByGlobal ∧
        (s.after l hashKey req).global = ⟨s.global.level l.ceiling req.now, req.now⟩)) := by
  unfold after admitRequest
  rw [if_pos h]
  obtain ⟨-, htake⟩ | ⟨hlevel, htake⟩ := take_cases l.ceiling s.global req.now
  · simp [htake]
  · simp [htake, hlevel]

theorem admit_sender (h : req.sender ≠ []) :
    ∃ own,
    (s.after l hashKey req).senders
        = (s.touch l (keyOf hashKey req.sender) req.now).1.senders.insert (keyOf hashKey req.sender)
          own ∧
      (s.after l hashKey req).order = (s.touch l (keyOf hashKey req.sender) req.now).1.order ∧
      Drew l s (s.after l hashKey req) (keyOf hashKey req.sender) req.now
        (s.admitRequest l hashKey req).2 own := by
  unfold after admitRequest
  rw [if_neg h]
  dsimp only
  rw [touch_snd, touch_global]
  obtain ⟨hlow, htake⟩ | ⟨hown, htake⟩ :=
    take_cases l.sender (s.found l (keyOf hashKey req.sender) req.now) req.now
  · simp only [htake]
    exact ⟨_, rfl, rfl, .refusedBySender hlow rfl⟩
  · obtain ⟨-, hglobal⟩ | ⟨hceiling, hglobal⟩ := take_cases l.ceiling s.global req.now
    · simp only [htake, hglobal]
      exact ⟨_, rfl, rfl, .refusedByGlobal rfl⟩
    · simp only [htake, hglobal]
      exact ⟨_, rfl, rfl, .admitted hown hceiling rfl⟩

/-! ## The senders -/

/-- The keys of the senders of some requests, in their order. -/
def keysSeen (hashKey : Bytes) (reqs : List WebhookRequest) : List Bytes :=
  (reqs.filter fun req => req.sender ≠ []).map fun req => keyOf hashKey req.sender

/-- **The list and the map hold the same senders**, the most recently seen first. -/
structure Tracks (l : Limits) (keys : List Bytes) (s : Limiter) : Prop where
  order : s.order = (recency keys).take l.maxSenders
  senders : ∀ k, k ∈ s.order ↔ (s.senders.lookup k).isSome = true

theorem Tracks.nodup {keys : List Bytes} (h : Tracks l keys s) : s.order.Nodup := by
  rw [h.order]
  exact (List.nodup_reverse.mpr keys.nodup_dedup).sublist (List.take_sublist _ _)

theorem Tracks.touch_order {keys : List Bytes} (h : Tracks l keys s) (key : Bytes) (now : ℚ) :
    (s.touch l key now).1.order = (recency (keys ++ [key])).take l.maxSenders := by
  obtain ⟨n, hn⟩ := Nat.exists_eq_succ_of_ne_zero l.positive.2.2.2.2.ne'
  have horder := h.order
  rw [Limiter.touch_order, recency_concat, hn, List.take_succ_cons, take_erase]
  rw [hn] at horder
  rw [← horder]
  congr 1
  by_cases hkey : key ∈ s.order
  · rw [if_pos hkey, if_pos ((h.senders key).mp hkey)]
  · rw [if_neg hkey, if_neg fun hsome => hkey ((h.senders key).mpr hsome), evict_order, hn, horder]
    split
    · next hfull =>
      rw [List.length_take] at hfull
      rw [List.dropLast_eq_take, List.take_take, List.length_take]
      congr 1
      omega
    · next hroom =>
      rw [List.length_take] at hroom
      rw [List.take_of_length_le (by omega), List.take_of_length_le (by omega)]

theorem keysSeen_append (reqs reqs' : List WebhookRequest) :
    keysSeen hashKey (reqs ++ reqs') = keysSeen hashKey reqs ++ keysSeen hashKey reqs' := by
  rw [keysSeen, keysSeen, keysSeen, List.filter_append, List.map_append]

theorem not_mem_dropLast {order : List Bytes} (hnodup : order.Nodup) {k : Bytes}
    (hlast : order.getLast? = some k) : k ∉ order.dropLast := by
  obtain ⟨front, rfl⟩ := List.getLast?_eq_some_iff.mp hlast
  rw [List.dropLast_concat]
  exact fun hmem => (List.nodup_append.mp hnodup).2.2 k hmem k (List.mem_singleton_self k) rfl

theorem Tracks.mem_touch {keys : List Bytes} (h : Tracks l keys s) {key k : Bytes} (hk : k ≠ key)
    (now : ℚ) :
    k ∈ (s.touch l key now).1.order ↔ ((s.touch l key now).1.senders.lookup k).isSome = true := by
  rw [Limiter.touch_order, List.mem_cons, or_iff_right hk, lookup_touch hk]
  by_cases hkey : (s.senders.lookup key).isSome = true
  · have hnone : s.evicted l key = none := if_pos (.inl hkey)
    rw [if_pos hkey, hnone, List.mem_erase_of_ne hk, h.senders]
    simp
  · rw [if_neg hkey, evict_order]
    by_cases hfull : l.maxSenders ≤ s.order.length
    · have hlast : s.evicted l key = s.order.getLast? := if_neg (by simp [hkey, hfull])
      rw [if_pos hfull, hlast]
      by_cases hlast : s.order.getLast? = some k
      · simp [hlast, not_mem_dropLast h.nodup hlast]
      · rw [if_neg hlast, mem_dropLast_iff hlast, h.senders]
    · have hnone : s.evicted l key = none := if_pos (.inr (Nat.lt_of_not_le hfull))
      rw [if_neg hfull, hnone, h.senders]
      simp

theorem Tracks.after {keys : List Bytes} (h : Tracks l keys s) (req : WebhookRequest) :
    Tracks l (keys ++ keysSeen hashKey [req]) (s.after l hashKey req) := by
  by_cases hsender : req.sender = []
  · have hseen : keysSeen hashKey [req] = [] := by simp [keysSeen, hsender]
    obtain ⟨horder, hsenders, -⟩ := @admit_anonymous l hashKey s req hsender
    rw [hseen, List.append_nil]
    exact ⟨horder.trans h.order, fun k => by rw [horder, hsenders]; exact h.senders k⟩
  · have hseen : keysSeen hashKey [req] = [keyOf hashKey req.sender] := by simp [keysSeen, hsender]
    obtain ⟨own, hsenders, horder, -⟩ := @admit_sender l hashKey s req hsender
    rw [hseen]
    refine ⟨horder.trans (h.touch_order _ _), fun k => ?_⟩
    rw [horder, hsenders, lookup_insert_ite]
    by_cases hk : k = keyOf hashKey req.sender
    · rw [if_pos hk, hk, Limiter.touch_order]
      simp
    · rw [if_neg hk]
      exact h.mem_touch hk _

theorem tracks_run (l : Limits) (hashKey : Bytes) (start : ℚ) (reqs : List WebhookRequest) :
    Tracks l (keysSeen hashKey reqs) (reqs.foldl (after l hashKey) (newLimiter l start)) := by
  induction reqs using List.reverseRecOn with
  | nil => exact ⟨by simp [newLimiter, recency, keysSeen], fun k => by simp [newLimiter]⟩
  | append_singleton reqs req ih =>
    rw [List.foldl_concat, keysSeen_append]
    exact ih.after req

/-! ## The ceiling -/

/-- What an admitted request of a kind costs. -/
def costOf (l : Limits) (hashKey : Bytes) (P : WebhookRequest → Prop) [DecidablePred P]
    (s : Limiter) (req : WebhookRequest) : ℚ :=
  if P req ∧ (s.admitRequest l hashKey req).2 = .admitted then 1 else 0

/-- **What a request does to the ceiling**: it takes one token if it is admitted, and otherwise at
most refills it. -/
theorem global_after (s : Limiter) (req : WebhookRequest) :
    (s.admitRequest l hashKey req).2 = .admitted ∧ 1 ≤ s.global.level l.ceiling req.now ∧
        (s.after l hashKey req).global = ⟨s.global.level l.ceiling req.now - 1, req.now⟩ ∨
      (s.admitRequest l hashKey req).2 ≠ .admitted ∧ ((s.after l hashKey req).global = s.global ∨
        (s.after l hashKey req).global = ⟨s.global.level l.ceiling req.now, req.now⟩) := by
  by_cases hsender : req.sender = []
  · obtain ⟨-, -, h | ⟨hverdict, hglobal⟩⟩ := @admit_anonymous l hashKey s req hsender
    · exact .inl h
    · exact .inr ⟨by rw [hverdict]; nofun, .inr hglobal⟩
  · obtain ⟨own, -, -, hdrew⟩ := @admit_sender l hashKey s req hsender
    generalize (s.admitRequest l hashKey req).2 = verdict at hdrew ⊢
    cases hdrew with
    | refusedBySender _ hglobal => exact .inr ⟨nofun, .inl hglobal⟩
    | refusedByGlobal hglobal => exact .inr ⟨nofun, .inr hglobal⟩
    | admitted _ hceiling hglobal => exact .inl ⟨rfl, hceiling, hglobal⟩

theorem global_draws {t : ℚ} (hwithin : s.global.Within l.ceiling) (hlast : s.global.last ≤ t)
    (ht : t ≤ req.now) :
    ((s.after l hashKey req).global.Within l.ceiling ∧
      (s.after l hashKey req).global.last ≤ req.now) ∧
      (s.after l hashKey req).global.level l.ceiling req.now + costOf l hashKey (fun _ => True) s
        req
        ≤ s.global.level l.ceiling t + l.ceiling.perSecond * (req.now - t) := by
  have hgain : s.global.level l.ceiling req.now ≤ _ := Bucket.level_le_add hlast ht
  unfold costOf
  obtain ⟨hverdict, hlevel, hglobal⟩ | ⟨hverdict, hglobal | hglobal⟩ :=
    @global_after l hashKey s req
  · rw [hglobal, if_pos ⟨trivial, hverdict⟩, Bucket.level_self, sub_add_cancel]
    exact ⟨⟨hwithin.draw zero_le_one hlevel, le_refl _⟩, hgain⟩
  · rw [hglobal, if_neg fun h => hverdict h.2, add_zero]
    exact ⟨⟨hwithin, hlast.trans ht⟩, hgain⟩
  · rw [hglobal, if_neg fun h => hverdict h.2, add_zero, Bucket.level_self]
    exact ⟨⟨⟨hwithin.level_nonneg _, hwithin.level_le _⟩, le_refl _⟩, hgain⟩

/-- The meter of all requests. -/
def globalMeter (l : Limits) (hashKey : Bytes) :
    Meter (after l hashKey) (costOf l hashKey fun _ => True) WebhookRequest.now l.ceiling fun _ _ =>
      True where
  Holds s t := s.global.Within l.ceiling ∧ s.global.last ≤ t
  held s t := s.global.level l.ceiling t
  held_nonneg h := h.1.level_nonneg _
  held_le h := h.1.level_le _
  later h ht := ⟨h.1, h.2.trans ht⟩
  keeps h ht := (global_draws h.1 h.2 ht).1
  draws h _ ht := (global_draws h.1 h.2 ht).2

/-! ## One sender -/

/-- The buckets of the senders are within their burst. -/
def SenderWithin (l : Limits) (key : Bytes) (s : Limiter) (t : ℚ) : Prop :=
  ∀ b, s.senders.lookup key = some b → b.Within l.sender ∧ b.last ≤ t

def heldBy (l : Limits) (key : Bytes) (s : Limiter) (t : ℚ) : ℚ :=
  (s.senders.lookup key).elim l.sender.burst fun b => b.level l.sender t

variable {key : Bytes} {t : ℚ}

theorem SenderWithin.found (h : SenderWithin l key s t) {now : ℚ} (ht : t ≤ now) :
    (s.found l key now).Within l.sender ∧
      (s.found l key now).level l.sender now
        ≤ heldBy l key s t + l.sender.perSecond * (now - t) := by
  unfold Limiter.found heldBy
  cases hb : s.senders.lookup key with
  | some b =>
    obtain ⟨hwithin, hlast⟩ := h b hb
    exact ⟨hwithin, Bucket.level_le_add hlast ht⟩
  | none =>
    refine ⟨⟨Nat.cast_nonneg _, le_refl _⟩, ?_⟩
    rw [Option.getD_none, Bucket.level_self, Option.elim_none]
    exact le_add_of_nonneg_right (mul_nonneg l.sender.perSecond_nonneg (sub_nonneg.mpr ht))

/-- **What a request of a sender does to its bucket**: it takes one token if it is admitted, and
otherwise leaves what refilling alone would. -/
theorem Drew.own {s' : Limiter} {now : ℚ} {verdict : LimitVerdict} {own : Bucket}
    (h : Drew l s s' key now verdict own) (hwithin : (s.found l key now).Within l.sender) :
    verdict = .admitted ∧ 1 ≤ (s.found l key now).level l.sender now ∧
        own = ⟨(s.found l key now).level l.sender now - 1, now⟩ ∨
      verdict ≠ .admitted ∧ own = ⟨(s.found l key now).level l.sender now, now⟩ := by
  cases h with
  | refusedBySender _ _ => exact .inr ⟨nofun, rfl⟩
  | refusedByGlobal _ =>
    refine .inr ⟨nofun, ?_⟩
    rw [refund, sub_add_cancel, min_eq_right (hwithin.level_le now)]
  | admitted hown _ _ => exact .inl ⟨rfl, hown, rfl⟩

/-- A request that does not drive a sender out. -/
def Keeps (l : Limits) (hashKey key : Bytes) (s : Limiter) (req : WebhookRequest) : Prop :=
  req.sender ≠ [] → s.evicted l (keyOf hashKey req.sender) ≠ some key

/-- A request that leaves a sender's bucket alone. -/
theorem SenderWithin.same (h : SenderWithin l key s t) {s' : Limiter} {now : ℚ} (ht : t ≤ now)
    (hsame : s'.senders.lookup key = s.senders.lookup key) : SenderWithin l key s' now ∧
      heldBy l key s' now ≤ heldBy l key s t + l.sender.perSecond * (now - t) := by
  constructor
  · intro b hb
    obtain ⟨hwithin, hlast⟩ := h b (hsame.symm.trans hb)
    exact ⟨hwithin, hlast.trans ht⟩
  · rw [heldBy, hsame]
    cases hb : s.senders.lookup key with
    | some b =>
      rw [heldBy, hb]
      exact Bucket.level_le_add (h b hb).2 ht
    | none =>
      rw [heldBy, hb]
      exact le_add_of_nonneg_right (mul_nonneg l.sender.perSecond_nonneg (sub_nonneg.mpr ht))

theorem sender_draws {x : Bytes} (hx : x ≠ []) (h : SenderWithin l (keyOf hashKey x) s t)
    (ht : t ≤ req.now) :
    SenderWithin l (keyOf hashKey x) (s.after l hashKey req) req.now ∧
    (Keeps l hashKey (keyOf hashKey x) s req →
      heldBy l (keyOf hashKey x) (s.after l hashKey req) req.now + costOf l hashKey (·.sender = x) s
        req
        ≤ heldBy l (keyOf hashKey x) s t + l.sender.perSecond * (req.now - t)) := by
  by_cases hsender : req.sender = []
  · obtain ⟨-, hsenders, -⟩ := @admit_anonymous l hashKey s req hsender
    obtain ⟨hwithin, hheld⟩ := h.same ht (congrArg (Finmap.lookup _) hsenders)
    rw [costOf, if_neg fun hcost => hx (hcost.1.symm.trans hsender), add_zero]
    exact ⟨hwithin, fun _ => hheld⟩
  obtain ⟨own, hsenders, -, hdrew⟩ := @admit_sender l hashKey s req hsender
  by_cases hown : keyOf hashKey req.sender = keyOf hashKey x
  · rw [hown] at hsenders hdrew
    obtain ⟨hwithin, hfound⟩ := h.found ht
    have hlookup : (s.after l hashKey req).senders.lookup (keyOf hashKey x) = some own := by
      rw [hsenders, Finmap.lookup_insert]
    have hheld : heldBy l (keyOf hashKey x) (s.after l hashKey req) req.now
        = own.level l.sender req.now := by
      rw [heldBy, hlookup, Option.elim_some]
    unfold SenderWithin
    rw [hlookup, hheld, costOf]
    obtain ⟨hverdict, hlevel, rfl⟩ | ⟨hverdict, rfl⟩ := hdrew.own hwithin
    · refine ⟨?_, fun _ => ?_⟩
      · rintro _ ⟨⟩
        exact ⟨hwithin.draw zero_le_one hlevel, le_refl _⟩
      · rw [Bucket.level_self]
        split_ifs <;> linarith
    · refine ⟨?_, fun _ => ?_⟩
      · rintro _ ⟨⟩
        exact ⟨⟨hwithin.level_nonneg _, hwithin.level_le _⟩, le_refl _⟩
      · rw [Bucket.level_self, if_neg fun hcost => hverdict hcost.2, add_zero]
        exact hfound
  · have hne : keyOf hashKey x ≠ keyOf hashKey req.sender := Ne.symm hown
    have hlookup : (s.after l hashKey req).senders.lookup (keyOf hashKey x)
        = if s.evicted l (keyOf hashKey req.sender) = some (keyOf hashKey x) then none
          else s.senders.lookup (keyOf hashKey x) := by
      rw [hsenders, Finmap.lookup_insert_of_ne _ hne, lookup_touch hne]
    have hcost : ¬ (req.sender = x ∧ (s.admitRequest l hashKey req).2 = .admitted) := fun hcost =>
      hown (congrArg _ hcost.1)
    rw [costOf, if_neg hcost, add_zero]
    by_cases hevicted : s.evicted l (keyOf hashKey req.sender) = some (keyOf hashKey x)
    · rw [if_pos hevicted] at hlookup
      refine ⟨fun b hb => ?_, fun hkeeps => absurd hevicted (hkeeps hsender)⟩
      rw [hlookup] at hb
      cases hb
    · rw [if_neg hevicted] at hlookup
      obtain ⟨hwithin, hheld⟩ := h.same ht hlookup
      exact ⟨hwithin, fun _ => hheld⟩

/-- The meter of one sender's requests. -/
def senderMeter (l : Limits) (hashKey : Bytes) {x : Bytes} (hx : x ≠ []) :
    Meter (after l hashKey) (costOf l hashKey (·.sender = x)) WebhookRequest.now l.sender
      (Keeps l hashKey (keyOf hashKey x)) where
  Holds := SenderWithin l (keyOf hashKey x)
  held := heldBy l (keyOf hashKey x)
  held_nonneg {s t} h := by
    unfold heldBy
    cases hb : s.senders.lookup (keyOf hashKey x) with
    | some b => exact (h b hb).1.level_nonneg _
    | none => exact l.sender.burst_nonneg
  held_le {s t} h := by
    unfold heldBy
    cases hb : s.senders.lookup (keyOf hashKey x) with
    | some b => exact (h b hb).1.level_le _
    | none => exact le_refl _
  later h ht b hb := ⟨(h b hb).1, (h b hb).2.trans ht⟩
  keeps h ht := (sender_draws hx h ht).1
  draws h hkeeps ht := (sender_draws hx h ht).2 hkeeps

/-! ## Every sequence of requests -/

/-- The admitted requests among some that are judged from a state on. -/
def admitted (l : Limits) (hashKey : Bytes) : Limiter → List WebhookRequest → List WebhookRequest
  | _, [] => []
  | s, req :: reqs =>
    if (s.admitRequest l hashKey req).2 = .admitted then
      req :: admitted l hashKey (s.after l hashKey req) reqs
    else admitted l hashKey (s.after l hashKey req) reqs

theorem drawn_costOf (P : WebhookRequest → Prop) [DecidablePred P] (s : Limiter)
    (reqs : List WebhookRequest) :
    drawn (after l hashKey) (costOf l hashKey P) s reqs
      = (((s.admitted l hashKey reqs).filter fun req => P req).length : ℚ) := by
  induction reqs generalizing s with
  | nil => rfl
  | cons req reqs ih =>
    rw [drawn, ih, costOf, admitted]
    by_cases hverdict : (s.admitRequest l hashKey req).2 = .admitted
    · by_cases hP : P req
      · simp [hverdict, hP, add_comm]
      · simp [hverdict, hP]
    · simp [hverdict]

theorem senderWithin_newLimiter (key : Bytes) (start : ℚ) :
    SenderWithin l key (newLimiter l start) start := by
  intro b hb
  simp [newLimiter] at hb

/-- **The limiter over every sequence of requests**: a request that the ceiling refuses leaves its
sender's bucket as refilling does, and one that its sender's bucket refuses leaves the ceiling
alone; the list and the map hold the senders seen last; and what is admitted in a window, of all or
of one sender that is not driven out in it, is within the burst and what the window brings. -/
theorem limiter_bounds (l : Limits) (hashKey : Bytes) (start : ℚ) (pre : List WebhookRequest) :
    let s := pre.foldl (after l hashKey) (newLimiter l start)
    (∀ req, List.IsChain (· ≤ ·) (start :: (pre ++ [req]).map WebhookRequest.now) →
      req.sender ≠ [] →
      (s.admitRequest l hashKey req).2 = .refusedByGlobal →
      (s.after l hashKey req).senders.lookup (keyOf hashKey req.sender)
        = some ⟨(s.found l (keyOf hashKey req.sender) req.now).level l.sender req.now, req.now⟩) ∧
    (∀ req, (s.admitRequest l hashKey req).2 = .refusedBySender →
      (s.after l hashKey req).global = s.global) ∧
    (s.order = (recency (keysSeen hashKey pre)).take l.maxSenders ∧ s.order.Nodup ∧
      s.order.length ≤ l.maxSenders ∧ ∀ k, k ∈ s.order ↔ (s.senders.lookup k).isSome = true) ∧
    ∀ win t w, List.IsChain (· ≤ ·) (start :: (pre ++ win).map WebhookRequest.now) → 0 ≤ w →
      (∀ req ∈ win, t ≤ req.now ∧ req.now ≤ t + w) →
      ((s.admitted l hashKey win).length : ℚ) ≤ l.globalBurst + l.globalPerMinute / 60 * w ∧
      ∀ x, x ≠ [] → (∀ pre' req post, win = pre' ++ req :: post →
          Keeps l hashKey (keyOf hashKey x) (pre'.foldl (after l hashKey) s) req) →
        (((s.admitted l hashKey win).filter (·.sender = x)).length : ℚ)
          ≤ l.senderBurst + l.senderPerMinute / 60 * w := by
  intro s
  have htracks := tracks_run l hashKey start pre
  refine ⟨?_, ?_, ⟨htracks.order, htracks.nodup, ?_, htracks.senders⟩, ?_⟩
  · intro req hclock hsender hverdict
    obtain ⟨t, ht, hwithin⟩ :=
      (senderMeter l hashKey hsender).holds_run (senderWithin_newLimiter _ start) hclock
    obtain ⟨own, hsenders, -, hdrew⟩ := @admit_sender l hashKey s req hsender
    obtain ⟨hadmitted, -⟩ | ⟨-, rfl⟩ := hdrew.own (hwithin.found ht).1
    · rw [hverdict] at hadmitted
      cases hadmitted
    · rw [hsenders, Finmap.lookup_insert]
  · intro req hverdict
    by_cases hsender : req.sender = []
    · obtain ⟨-, -, ⟨h, -⟩ | ⟨h, -⟩⟩ := @admit_anonymous l hashKey s req hsender
      all_goals
        rw [hverdict] at h
        cases h
    · obtain ⟨own, -, -, hdrew⟩ := @admit_sender l hashKey s req hsender
      rw [hverdict] at hdrew
      cases hdrew with
      | refusedBySender _ hglobal => exact hglobal
  · rw [htracks.order]
    exact List.length_take_le _ _
  · intro win t w hclock hw hwin
    constructor
    · have hfull : (newLimiter l start).global.Within l.ceiling := ⟨Nat.cast_nonneg _, le_refl _⟩
      have hwindow :=
        (globalMeter l hashKey).window_le ⟨hfull, le_refl _⟩ hclock hwin hw fun _ _ _ _ => trivial
      rw [drawn_costOf] at hwindow
      simpa [Limits.ceiling] using hwindow
    · intro x hx hkeeps
      have hwindow :=
        (senderMeter l hashKey hx).window_le (senderWithin_newLimiter _ start) hclock hwin hw
        fun pre' req post heq => by
          rw [List.foldl_append]
          exact hkeeps pre' req post heq
      rw [drawn_costOf] at hwindow
      exact hwindow

end Limiter

end OriGateway
