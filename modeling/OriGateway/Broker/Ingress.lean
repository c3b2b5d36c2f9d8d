import OriGateway.Foundation.Bucket
import OriGateway.Foundation.GoMap
import OriGateway.Foundation.Paths

/-! # Ingress volume

A subscription admits a message by its size and then by the rate of the device it names:
**`admitVolume`**. A wildcard subscription has a bucket of messages and bytes for each configured
device, and one for all others. -/

namespace OriGateway

open Foundation

structure IngressRate where
  perSecond : ℚ
  burst : Nat
  bytesPerSecond : ℚ
  burstBytes : Nat
  perSecond_nonneg : 0 ≤ perSecond
  bytesPerSecond_nonneg : 0 ≤ bytesPerSecond

/-- The families of messages the gateway receives. -/
inductive IngressFamily where
  | runtimeHeartbeat
  | reasoningRequest
  | enrichmentRequest
  | exportResponse
  | evidenceOutbound
  | evidenceInboundAck

/-- The rate of each family. -/
def ingressRates : IngressFamily → IngressRate
  | .runtimeHeartbeat => ⟨1, 5, 128 * 1024, 256 * 1024, by norm_num, by norm_num⟩
  | .reasoningRequest => ⟨10, 20, 512 * 1024, 1024 * 1024, by norm_num, by norm_num⟩
  | .enrichmentRequest => ⟨2, 10, 256 * 1024, 512 * 1024, by norm_num, by norm_num⟩
  | .exportResponse => ⟨20, 64, 4 * 1024 * 1024, 16 * 1024 * 1024, by norm_num, by norm_num⟩
  | .evidenceOutbound => ⟨20, 160, 2 * 1024 * 1024, 4 * 1024 * 1024, by norm_num, by norm_num⟩
  | .evidenceInboundAck => ⟨20, 64, 64 * 1024, 256 * 1024, by norm_num, by norm_num⟩

/-- The longest payload of each family. -/
def payloadMaxima : IngressFamily → Nat
  | .runtimeHeartbeat => 65536
  | .reasoningRequest | .enrichmentRequest => 262144
  | .exportResponse => 4194304
  | .evidenceOutbound => 1572864
  | .evidenceInboundAck => 16384

namespace IngressRate

def messages (rate : IngressRate) : BucketRate :=
  ⟨rate.perSecond, rate.burst, rate.perSecond_nonneg, by positivity⟩

def bytes (rate : IngressRate) : BucketRate :=
  ⟨rate.bytesPerSecond, rate.burstBytes, rate.bytesPerSecond_nonneg, by positivity⟩

end IngressRate

structure IngressBucket where
  tokens : ℚ
  bytes : ℚ
  last : ℚ

namespace IngressBucket

def newIngressBucket (rate : IngressRate) (now : ℚ) : IngressBucket :=
  ⟨rate.burst, rate.burstBytes, now⟩

def messageBucket (b : IngressBucket) : Bucket := ⟨b.tokens, b.last⟩

def byteBucket (b : IngressBucket) : Bucket := ⟨b.bytes, b.last⟩

def refilled (rate : IngressRate) (b : IngressBucket) (now : ℚ) : IngressBucket :=
  ⟨b.messageBucket.level rate.messages now, b.byteBucket.level rate.bytes now, now⟩

/-- Refill the bucket, and take a message from it if it holds one and its bytes. -/
def draw (rate : IngressRate) (b : IngressBucket) (length : Nat) (now : ℚ) : IngressBucket × Bool :=
  let b := b.refilled rate now
  if 1 ≤ b.tokens ∧ (length : ℚ) ≤ b.bytes then
    ({ b with tokens := b.tokens - 1, bytes := b.bytes - length }, true)
  else (b, false)

end IngressBucket

structure IngressGate where
  maximum : Nat
  rate : IngressRate
  perDevice : Bool
  buckets : GoMap Bytes IngressBucket
  overflow : IngressBucket

/-- The device segment of a topic. -/
def deviceSegment (topic : Bytes) : Bytes :=
  match splitSlash topic with
  | _ :: segment :: _ :: _ => segment
  | _ => []

/-- The gate of a family's subscription. -/
def newIngressGate (family : IngressFamily) (topic : Bytes) (devices : List Bytes) (start : ℚ) :
    IngressGate :=
  let rate := ingressRates family
  { maximum := payloadMaxima family
    rate := rate
    perDevice := deviceSegment topic == ascii "+"
    buckets :=
      if deviceSegment topic == ascii "+" then
        devices.foldl (fun m device => m.insert device (.newIngressBucket rate start)) ∅
      else ∅
    overflow := .newIngressBucket rate start }

/-- A message as the gate sees it, with the instant it is judged at. -/
structure IngressMessage where
  topic : Bytes
  length : Nat
  now : ℚ

namespace IngressGate

/-- Charge a message to its device and to its family. -/
def admitVolume (g : IngressGate) (m : IngressMessage) : IngressGate × Bool :=
  if g.maximum < m.length then (g, false)
  else
    match if g.perDevice then g.buckets.lookup (deviceSegment m.topic) else none with
    | some own =>
      let drawn := own.draw g.rate m.length m.now
      ({ g with buckets := g.buckets.insert (deviceSegment m.topic) drawn.1 }, drawn.2)
    | none =>
      let drawn := g.overflow.draw g.rate m.length m.now
      ({ g with overflow := drawn.1 }, drawn.2)

def after (g : IngressGate) (m : IngressMessage) : IngressGate := (g.admitVolume m).1

/-- What becomes of each of some messages. -/
def verdicts : IngressGate → List IngressMessage → List (IngressMessage × Bool)
  | _, [] => []
  | g, m :: ms => (m, (g.admitVolume m).2) :: verdicts (g.after m) ms

/-! ## One device -/

/-- What becomes of a message to a bucket of its own. -/
def judge (g : IngressGate) (b : IngressBucket) (m : IngressMessage) : IngressBucket × Bool :=
  if g.maximum < m.length then (b, false) else b.draw g.rate m.length m.now

theorem after_config (g : IngressGate) (m : IngressMessage) : (g.after m).maximum = g.maximum ∧
    (g.after m).rate = g.rate ∧ (g.after m).perDevice = g.perDevice := by
  unfold after admitVolume
  split
  · exact ⟨rfl, rfl, rfl⟩
  · split <;> exact ⟨rfl, rfl, rfl⟩

variable {g : IngressGate} {d : Bytes} {b : IngressBucket} {m : IngressMessage}

/-- **A message of a configured device** is judged by that device's bucket. -/
theorem admitVolume_own (hper : g.perDevice = true) (hb : g.buckets.lookup d = some b)
    (hd : deviceSegment m.topic = d) :
    (g.admitVolume m).2 = (g.judge b m).2 ∧
    (g.after m).buckets.lookup d = some (g.judge b m).1 := by
  subst hd
  unfold after admitVolume judge
  by_cases hlen : g.maximum < m.length
  · simp [hlen, hb]
  · simp [hlen, hper, hb, Finmap.lookup_insert]

/-- **A message of another device** leaves the bucket as it is. -/
theorem after_other (hd : deviceSegment m.topic ≠ d) :
    (g.after m).buckets.lookup d = g.buckets.lookup d := by
  unfold after admitVolume
  split
  · rfl
  · split
    · exact Finmap.lookup_insert_of_ne _ (Ne.symm hd)
    · rfl

/-- The verdicts on one device's messages. -/
def verdictsOf (d : Bytes) (g : IngressGate) (ms : List IngressMessage) :
    List (IngressMessage × Bool) :=
  (g.verdicts ms).filter fun p => deviceSegment p.1.topic == d

/-- **What is admitted of a device depends on its own messages only.** -/
theorem verdictsOf_eq {g g' : IngressGate} (hconfig : g'.maximum = g.maximum ∧ g'.rate = g.rate)
    (hper : g.perDevice = true) (hper' : g'.perDevice = true) (hb : g.buckets.lookup d = some b)
    (hb' : g'.buckets.lookup d = some b) (ms : List IngressMessage) :
    g.verdictsOf d ms = g'.verdicts (ms.filter fun m => deviceSegment m.topic == d) := by
  induction ms generalizing g g' b with
  | nil => rfl
  | cons m ms ih =>
    obtain ⟨hmax, hrate, hkeep⟩ := after_config g m
    by_cases hd : deviceSegment m.topic = d
    · obtain ⟨hmax', hrate', hkeep'⟩ := after_config g' m
      have hjudge : g'.judge b m = g.judge b m := by rw [judge, judge, hconfig.1, hconfig.2]
      obtain ⟨hverdict, hafter⟩ := admitVolume_own hper hb hd
      obtain ⟨hverdict', hafter'⟩ := admitVolume_own hper' hb' hd
      rw [hjudge] at hverdict' hafter'
      rw [verdictsOf, verdicts, List.filter_cons_of_pos (by simpa using hd),
        List.filter_cons_of_pos (by simpa using hd), verdicts, hverdict, hverdict']
      exact congrArg _
        (ih ⟨hmax'.trans (hconfig.1.trans hmax.symm), hrate'.trans (hconfig.2.trans hrate.symm)⟩
        (hkeep.trans hper) (hkeep'.trans hper') hafter hafter')
    · rw [verdictsOf, verdicts, List.filter_cons_of_neg (by simpa using hd),
        List.filter_cons_of_neg (by simpa using hd)]
      exact ih ⟨hconfig.1.trans hmax.symm, hconfig.2.trans hrate.symm⟩ (hkeep.trans hper) hper'
        ((after_other hd).trans hb) hb'

/-! ## Windows -/

/-- The messages of a device that were admitted. -/
def admittedOf (d : Bytes) (g : IngressGate) (ms : List IngressMessage) : List IngressMessage :=
  ((g.verdictsOf d ms).filter Prod.snd).map Prod.fst

/-- What a message of a device costs when it is admitted. -/
def costOf (d : Bytes) (cost : IngressMessage → ℚ) (g : IngressGate) (m : IngressMessage) : ℚ :=
  if deviceSegment m.topic = d ∧ (g.admitVolume m).2 = true then cost m else 0

theorem drawn_costOf (d : Bytes) (cost : IngressMessage → ℚ) (g : IngressGate)
    (ms : List IngressMessage) :
    drawn after (costOf d cost) g ms = ((g.admittedOf d ms).map cost).sum := by
  induction ms generalizing g with
  | nil => rfl
  | cons m ms ih =>
    rw [drawn, ih, costOf, admittedOf, admittedOf, verdictsOf, verdictsOf, verdicts]
    by_cases hd : deviceSegment m.topic = d
    · cases (g.admitVolume m).2 <;> simp [hd]
    · simp [hd]

/-- One of the two allowances of a bucket: which, at what rate, and what a message takes of it. -/
structure Allowance (rate : IngressRate) where
  side : IngressBucket → Bucket
  fills : BucketRate
  cost : IngressMessage → ℚ
  last : ∀ b, (side b).last = b.last
  full : ∀ now, side (.newIngressBucket rate now) = ⟨fills.burst, now⟩
  cost_nonneg : ∀ m, 0 ≤ cost m
  refilled : ∀ b now, side (b.refilled rate now) = ⟨(side b).level fills now, now⟩
  admitted : ∀ b m, (b.draw rate m.length m.now).2 = true → cost m ≤ (side b).level fills m.now ∧
    side (b.draw rate m.length m.now).1 = ⟨(side b).level fills m.now - cost m, m.now⟩

theorem draw_cases (rate : IngressRate) (b : IngressBucket) (length : Nat) (now : ℚ) :
    (b.draw rate length now).2 = true ∧ 1 ≤ (b.refilled rate now).tokens ∧
        (length : ℚ) ≤ (b.refilled rate now).bytes ∧ (b.draw rate length now).1 =
          ⟨(b.refilled rate now).tokens - 1, (b.refilled rate now).bytes - length, now⟩ ∨
      (b.draw rate length now).2 = false ∧ (b.draw rate length now).1 = b.refilled rate now := by
  unfold IngressBucket.draw
  dsimp only
  split
  · next h => exact .inl ⟨rfl, h.1, h.2, rfl⟩
  · exact .inr ⟨rfl, rfl⟩

/-- The allowance of messages. -/
def messageAllowance (rate : IngressRate) : Allowance rate where
  side := IngressBucket.messageBucket
  fills := rate.messages
  cost _ := 1
  last _ := rfl
  full _ := rfl
  cost_nonneg _ := zero_le_one
  refilled _ _ := rfl
  admitted b m h := by
    obtain ⟨-, htokens, -, hdraw⟩ | ⟨hfalse, -⟩ := draw_cases rate b m.length m.now
    · exact ⟨htokens, by rw [hdraw]; rfl⟩
    · rw [hfalse] at h
      cases h

/-- The allowance of bytes. -/
def byteAllowance (rate : IngressRate) : Allowance rate where
  side := IngressBucket.byteBucket
  fills := rate.bytes
  cost m := m.length
  last _ := rfl
  full _ := rfl
  cost_nonneg _ := Nat.cast_nonneg _
  refilled _ _ := rfl
  admitted b m h := by
    obtain ⟨-, -, hbytes, hdraw⟩ | ⟨hfalse, -⟩ := draw_cases rate b m.length m.now
    · exact ⟨hbytes, by rw [hdraw]; rfl⟩
    · rw [hfalse] at h
      cases h

section Meter

variable {rate : IngressRate} (a : Allowance rate)

/-- What judging a message does to an allowance. -/
theorem judge_cases (hrate : g.rate = rate) (b : IngressBucket) (m : IngressMessage) :
    (g.judge b m).2 = true ∧ a.cost m ≤ (a.side b).level a.fills m.now ∧
        a.side (g.judge b m).1 = ⟨(a.side b).level a.fills m.now - a.cost m, m.now⟩ ∨
      (g.judge b m).2 = false ∧
      ((g.judge b m).1 = b ∨ (g.judge b m).1 = b.refilled rate m.now) := by
  subst hrate
  unfold judge
  split
  · exact .inr ⟨rfl, .inl rfl⟩
  · obtain ⟨htrue, -⟩ | ⟨hfalse, hdraw⟩ := draw_cases g.rate b m.length m.now
    · exact .inl ⟨htrue, a.admitted b m htrue⟩
    · exact .inr ⟨hfalse, .inr hdraw⟩

/-- A gate serves a device from an allowance that is within its burst. -/
structure Serves (d : Bytes) (g : IngressGate) (now : ℚ) : Prop where
  perDevice : g.perDevice = true
  rate : g.rate = rate
  bucket : ∃ b, g.buckets.lookup d = some b ∧ (a.side b).Within a.fills ∧ b.last ≤ now

/-- What a device's allowance holds. -/
def heldFor (d : Bytes) (g : IngressGate) (now : ℚ) : ℚ :=
  (g.buckets.lookup d).elim 0 fun b => (a.side b).level a.fills now

theorem Serves.after (h : g.Serves a d t) (ht : t ≤ m.now) :
    (g.after m).Serves a d m.now ∧
    heldFor a d (g.after m) m.now + costOf d a.cost g m
      ≤ heldFor a d g t + a.fills.perSecond * (m.now - t) := by
  obtain ⟨hper, hrate, b, hb, hwithin, hlast⟩ := h
  obtain ⟨-, hrate', hper'⟩ := after_config g m
  suffices hnext : ∃ b', (g.after m).buckets.lookup d = some b' ∧ (a.side b').Within a.fills ∧
    b'.last ≤ m.now ∧
      (a.side b').level a.fills m.now + costOf d a.cost g m ≤ (a.side b).level a.fills m.now by
    obtain ⟨b', hb', hwithin', hlast', hdraw⟩ := hnext
    have hgain : (a.side b).level a.fills m.now
      ≤ (a.side b).level a.fills t + a.fills.perSecond * (m.now - t) :=
      Bucket.level_le_add ((a.last b).trans_le hlast) ht
    refine ⟨⟨hper'.trans hper, hrate'.trans hrate, b', hb', hwithin', hlast'⟩, ?_⟩
    rw [heldFor, hb', heldFor, hb]
    exact hdraw.trans hgain
  by_cases hd : deviceSegment m.topic = d
  · obtain ⟨hverdict, hafter⟩ := admitVolume_own hper hb hd
    refine ⟨_, hafter, ?_⟩
    have hlast' := a.last (g.judge b m).1
    obtain ⟨htrue, hcost, hside⟩ | ⟨hfalse, hsame | hrefilled⟩ := judge_cases a hrate b m
    · rw [hside] at hlast' ⊢
      rw [costOf, if_pos ⟨hd, hverdict.trans htrue⟩, Bucket.level_self, sub_add_cancel]
      exact ⟨hwithin.draw (a.cost_nonneg m) hcost, hlast'.symm.le, le_refl _⟩
    · rw [hsame, costOf, if_neg (by simp [hverdict, hfalse]), add_zero]
      exact ⟨hwithin, hlast.trans ht, le_refl _⟩
    · rw [hrefilled, costOf, if_neg (by simp [hverdict, hfalse]), a.refilled, Bucket.level_self,
        add_zero]
      exact ⟨⟨hwithin.level_nonneg _, hwithin.level_le _⟩, le_refl _, le_refl _⟩
  · refine ⟨b, (after_other hd).trans hb, hwithin, hlast.trans ht, ?_⟩
    rw [costOf, if_neg fun h => hd h.1, add_zero]

/-- **An allowance meters what is admitted of its device.** -/
def deviceMeter (d : Bytes) :
    Meter IngressGate.after (costOf d a.cost) IngressMessage.now a.fills fun _ _ => True where
  Holds := Serves a d
  held := heldFor a d
  held_nonneg h := by
    obtain ⟨b, hb, hwithin, -⟩ := h.bucket
    rw [heldFor, hb]
    exact hwithin.level_nonneg _
  held_le h := by
    obtain ⟨b, hb, hwithin, -⟩ := h.bucket
    rw [heldFor, hb]
    exact hwithin.level_le _
  later h ht := by
    obtain ⟨b, hb, hwithin, hlast⟩ := h.bucket
    exact ⟨h.perDevice, h.rate, b, hb, hwithin, hlast.trans ht⟩
  keeps h ht := (h.after a ht).1
  draws h _ ht := (h.after a ht).2

end Meter

/-! ## A wildcard subscription -/

theorem lookup_foldl_insert (devices : List Bytes) (m : GoMap Bytes IngressBucket)
    (h : d ∈ devices ∨ m.lookup d = some b) :
    (devices.foldl (fun m device => m.insert device b) m).lookup d = some b := by
  induction devices generalizing m with
  | nil => exact h.resolve_left List.not_mem_nil
  | cons device devices ih =>
    refine ih _ ?_
    by_cases hdevice : d = device
    · subst hdevice
      exact .inr (Finmap.lookup_insert _)
    · rw [Finmap.lookup_insert_of_ne _ hdevice]
      exact h.imp_left fun hmem => List.mem_of_ne_of_mem hdevice hmem

variable {family : IngressFamily} {topic : Bytes} {devices : List Bytes}

theorem lookup_newIngressGate (family : IngressFamily) (hwildcard : deviceSegment topic = ascii "+")
    (hd : d ∈ devices) (start : ℚ) :
    (newIngressGate family topic devices start).buckets.lookup d
      = some (.newIngressBucket (ingressRates family) start) := by
  rw [newIngressGate, if_pos (beq_iff_eq.mpr hwildcard)]
  exact lookup_foldl_insert devices ∅ (.inl hd)

theorem serves_newIngressGate (a : Allowance (ingressRates family))
    (hwildcard : deviceSegment topic = ascii "+") (hd : d ∈ devices) (start : ℚ) :
    Serves a d (newIngressGate family topic devices start) start := by
  refine ⟨beq_iff_eq.mpr hwildcard, rfl, _, lookup_newIngressGate family hwildcard hd start, ?_,
    le_refl _⟩
  rw [a.full]
  exact ⟨a.fills.burst_nonneg, le_refl _⟩

/-- A refused message may refill a bucket, and does nothing else. -/
structure RefilledOnly (g g' : IngressGate) (now : ℚ) : Prop where
  buckets : ∀ device, g'.buckets.lookup device = g.buckets.lookup device ∨
    ∃ b, g.buckets.lookup device = some b ∧ g'.buckets.lookup device = some (b.refilled g.rate now)
  overflow : g'.overflow = g.overflow ∨ g'.overflow = g.overflow.refilled g.rate now

theorem refilledOnly_of_refused (h : (g.admitVolume m).2 = false) :
    RefilledOnly g (g.after m) m.now := by
  revert h
  unfold after admitVolume
  split
  · exact fun _ => ⟨fun _ => .inl rfl, .inl rfl⟩
  · split
    · next own hown =>
      intro h
      obtain ⟨htrue, -⟩ | ⟨-, hdraw⟩ := draw_cases g.rate own m.length m.now
      · exact absurd (h.symm.trans htrue) Bool.false_ne_true
      · refine ⟨fun device => ?_, .inl rfl⟩
        by_cases hdevice : device = deviceSegment m.topic
        · subst hdevice
          refine .inr ⟨own, ?_, ?_⟩
          · split at hown
            · exact hown
            · cases hown
          · dsimp only
            rw [Finmap.lookup_insert, hdraw]
        · exact .inl (Finmap.lookup_insert_of_ne _ hdevice)
    · intro h
      obtain ⟨htrue, -⟩ | ⟨-, hdraw⟩ := draw_cases g.rate g.overflow m.length m.now
      · exact absurd (h.symm.trans htrue) Bool.false_ne_true
      · exact ⟨fun _ => .inl rfl, .inr hdraw⟩

/-- **The volume of a wildcard subscription.** Which messages of a configured device are admitted
depends on its own messages only; in any window they and their bytes are within the device's
allowances; and a refused message does nothing but refill. -/
theorem wildcard_volume (family : IngressFamily) {topic : Bytes}
    (hwildcard : deviceSegment topic = ascii "+")
    {devices : List Bytes} {d : Bytes} (hd : d ∈ devices) (start : ℚ) :
    (∀ ms, (newIngressGate family topic devices start).verdictsOf d ms
      = (newIngressGate family topic devices start).verdicts
        (ms.filter fun m => deviceSegment m.topic == d)) ∧
    (∀ pre win t w, List.IsChain (· ≤ ·) (start :: (pre ++ win).map IngressMessage.now) → 0 ≤ w →
      (∀ m ∈ win, t ≤ m.now ∧ m.now ≤ t + w) →
      let admitted := admittedOf d (pre.foldl after (newIngressGate family topic devices start)) win
      (admitted.length : ℚ) ≤ (ingressRates family).burst + (ingressRates family).perSecond * w ∧
        ((admitted.map fun m => (m.length : ℚ)).sum
          ≤ (ingressRates family).burstBytes + (ingressRates family).bytesPerSecond * w)) ∧
    ∀ (pre : List IngressMessage) m,
      let g := pre.foldl after (newIngressGate family topic devices start)
      (g.admitVolume m).2 = false → RefilledOnly g (g.after m) m.now := by
  have hbucket := lookup_newIngressGate family hwildcard hd start
  have hper : (newIngressGate family topic devices start).perDevice = true :=
    beq_iff_eq.mpr hwildcard
  refine ⟨verdictsOf_eq ⟨rfl, rfl⟩ hper hper hbucket hbucket, ?_,
    fun _ _ => refilledOnly_of_refused⟩
  intro pre win t w hclock hw hwin
  have hwindow (a : Allowance (ingressRates family)) :=
    (deviceMeter a d).window_le (serves_newIngressGate a hwildcard hd start) hclock hwin hw
      fun _ _ _ _ => trivial
  constructor
  · have hmessages := hwindow (messageAllowance _)
    rw [drawn_costOf] at hmessages
    simpa [messageAllowance, IngressRate.messages] using hmessages
  · have hbytes := hwindow (byteAllowance _)
    rw [drawn_costOf] at hbytes
    exact hbytes

/-- The gate of the heartbeats, with one configured device. -/
def heartbeatGate : IngressGate :=
  newIngressGate .runtimeHeartbeat (ascii "ori/+/runtime/heartbeat") [ascii "a"] 0

/-- Heartbeats of a configured device, and one of another between them; the last is too large. -/
def heartbeatsOfTwo : List IngressMessage :=
  [⟨ascii "ori/a/runtime/heartbeat", 10, 0⟩, ⟨ascii "ori/b/runtime/heartbeat", 10, 1⟩,
    ⟨ascii "ori/a/runtime/heartbeat", 65537, 2⟩]

theorem wildcard_volume_heartbeats :
    heartbeatGate.verdictsOf (ascii "a") heartbeatsOfTwo = heartbeatGate.verdicts
      (heartbeatsOfTwo.filter fun m => deviceSegment m.topic == ascii "a") ∧
    ((admittedOf (ascii "a") heartbeatGate heartbeatsOfTwo).length : ℚ) ≤ 5 + 1 * 2 ∧
    ∃ m ∈ heartbeatsOfTwo, RefilledOnly heartbeatGate (heartbeatGate.after m) m.now := by
  obtain ⟨hown, hwindow, hrefused⟩ := @wildcard_volume .runtimeHeartbeat
    (ascii "ori/+/runtime/heartbeat") (by decide) [ascii "a"] _ (List.mem_singleton_self _) 0
  have hlarge : (heartbeatGate.admitVolume ⟨ascii "ori/a/runtime/heartbeat", 65537, 2⟩).2 = false :=
    congrArg Prod.snd (if_pos (by decide))
  refine ⟨hown _, ?_, _, by simp [heartbeatsOfTwo], hrefused [] _ hlarge⟩
  have hmessages : ((admittedOf (ascii "a") heartbeatGate heartbeatsOfTwo).length : ℚ) ≤
      (5 : Nat) + 1 * 2 := (hwindow [] heartbeatsOfTwo 0 2 (by norm_num [heartbeatsOfTwo])
    (by norm_num) (by norm_num [heartbeatsOfTwo])).1
  exact_mod_cast hmessages

end IngressGate

end OriGateway
