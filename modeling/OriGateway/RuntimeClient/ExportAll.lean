import OriGateway.RuntimeClient.ExportItems

/-! # An export of several pages

`exportAll` asks a runtime for an export page by page, each page under the token the one before it
gave; `exportAll_ok_iff` says which answers it succeeds on, and with what. -/

namespace OriGateway

open Foundation

def maxLimit : Nat := 1000

def maxExportPages : Nat := 100

structure ExportRequest where
  requestID : Bytes
  exportType : Bytes
  deviceID : Bytes
  pageToken : Bytes

/-- What one request comes to: the id it was given, and the text of the response handed over to
it. -/
structure PageReply where
  requestID : Bytes
  result : Except Bytes Bytes

/-- Check a response against the request it answers. -/
def acceptResponse (req : ExportRequest) (requestID : Bytes)
    (result : Except ExportError ExportPage) : Except ExportError ExportPage :=
  match result with
  | .error e => .error e
  | .ok resp =>
    if resp.requestID ≠ requestID then .error (.requestIDMismatch resp.requestID)
    else if resp.deviceID ≠ [] ∧ resp.deviceID ≠ req.deviceID then
      .error (.deviceMismatch resp.deviceID)
    else if resp.exportType ≠ [] ∧ resp.exportType ≠ req.exportType then
      .error (.typeMismatch resp.exportType)
    else .ok resp

/-- One request and what its response is read as. -/
def requestPage (lib : CanonicalJSON) (req : ExportRequest) (reply : PageReply) :
    Except ExportError ExportPage :=
  acceptResponse req reply.requestID <|
    match reply.result with
    | .error text => .error (.request text)
    | .ok encoded => decodeResponsePayload lib encoded

section Loop

variable (lib : CanonicalJSON) (base : ExportRequest) (replies : Nat → PageReply)
  {pages : List ExportPage}

/-- The loop over the pages from the `i`-th request on, with the requests it makes. -/
def exportPages : Nat → Nat → List ExportItem → Bytes → List Bytes →
    List ExportRequest × Except ExportError (List ExportItem)
  | 0, _, _, _, _ => ([], .error .pageLimit)
  | turns + 1, i, all, pageToken, seenPageTokens =>
    let req := { base with pageToken := pageToken }
    match requestPage lib req (replies i) with
    | .error e => ([req], .error e)
    | .ok resp =>
      if resp.error ≠ [] then ([req], .error (.failed resp.error))
      else if maxLimit < all.length + resp.items.length then ([req], .error .itemLimit)
      else if resp.complete then ([req], .ok (all ++ resp.items))
      else if resp.nextPageToken = [] then ([req], .error .noToken)
      else if resp.nextPageToken ∈ seenPageTokens then
        ([req], .error (.repeatedToken resp.nextPageToken))
      else
        let rest := exportPages turns (i + 1) (all ++ resp.items) resp.nextPageToken
          (resp.nextPageToken :: seenPageTokens)
        (req :: rest.1, rest.2)

/-- Export every page, after the subscription to the device's responses. -/
def exportAll (subscription : Except Bytes Unit) :
    List ExportRequest × Except ExportError (List ExportItem) :=
  match subscription with
  | .error text => ([], .error (.request text))
  | .ok () => exportPages lib base replies maxExportPages 0 [] [] []

/-! ## The pages of an export -/

/-- The requests for some pages: the first under a token, each other under the token of the page
before. -/
def requestsFrom : Bytes → List ExportPage → List ExportRequest
  | _, [] => []
  | pageToken, page :: pages =>
    { base with pageToken := pageToken } :: requestsFrom page.nextPageToken pages

/-- Some pages answer the requests for them, from the `i`-th request on. -/
def Answered : Nat → Bytes → List ExportPage → Prop
  | _, _, [] => True
  | i, pageToken, page :: pages =>
    requestPage lib { base with pageToken := pageToken } (replies i) = .ok page ∧
      Answered (i + 1) page.nextPageToken pages

/-- **The pages of an export**, up to and including the first complete one. -/
structure ExportPages (pages : List ExportPage) : Prop where
  errors : ∀ page ∈ pages, page.error = []
  incomplete : ∀ page ∈ pages.dropLast, page.complete = false ∧ page.nextPageToken ≠ []
  complete : ∃ page, pages.getLast? = some page ∧ page.complete = true
  tokens : (pages.dropLast.map ExportPage.nextPageToken).Nodup

theorem exportPages_singleton {page : ExportPage} :
    ExportPages [page] ↔ page.error = [] ∧ page.complete = true := by
  constructor
  · rintro ⟨herrors, -, ⟨last, hlast, hcomplete⟩, -⟩
    cases hlast
    exact ⟨herrors _ List.mem_cons_self, hcomplete⟩
  · rintro ⟨herror, hcomplete⟩
    exact ⟨by simpa using herror, by simp, ⟨page, rfl, hcomplete⟩, by simp⟩

theorem exportPages_cons {page : ExportPage} (hne : pages ≠ []) :
    ExportPages (page :: pages) ↔ page.error = [] ∧ page.complete = false ∧
    page.nextPageToken ≠ [] ∧
      page.nextPageToken ∉ pages.dropLast.map ExportPage.nextPageToken ∧ ExportPages pages := by
  have hdrop := List.dropLast_cons_of_ne_nil hne (x := page)
  have hlast : (page :: pages).getLast? = pages.getLast? := by
    rw [List.getLast?_cons, List.getLast?_eq_some_getLast hne, Option.getD_some]
  constructor
  · rintro ⟨herrors, hincomplete, hcomplete, htokens⟩
    rw [hdrop] at hincomplete htokens
    rw [hlast] at hcomplete
    obtain ⟨hfirst, hincomplete⟩ := List.forall_mem_cons.mp hincomplete
    obtain ⟨herror, herrors⟩ := List.forall_mem_cons.mp herrors
    obtain ⟨hnew, htokens⟩ := List.nodup_cons.mp htokens
    exact ⟨herror, hfirst.1, hfirst.2, hnew, herrors, hincomplete, hcomplete, htokens⟩
  · rintro ⟨herror, hfirst, htoken, hnew, herrors, hincomplete, hcomplete, htokens⟩
    refine ⟨List.forall_mem_cons.mpr ⟨herror, herrors⟩, ?_, hlast ▸ hcomplete, ?_⟩
    · rw [hdrop]
      exact List.forall_mem_cons.mpr ⟨⟨hfirst, htoken⟩, hincomplete⟩
    · rw [hdrop]
      exact List.nodup_cons.mpr ⟨hnew, htokens⟩

theorem ExportPages.ne_nil (h : ExportPages pages) : pages ≠ [] := by
  rintro rfl
  obtain ⟨page, hlast, -⟩ := h.complete
  cases hlast

/-- The loop succeeded on some pages, having collected `all` and seen some tokens before. -/
structure Exports (turns i : Nat) (all : List ExportItem) (pageToken : Bytes) (seen : List Bytes)
    (pages : List ExportPage) (requests : List ExportRequest) (items : List ExportItem) : Prop where
  wellFormed : ExportPages pages
  answered : Answered lib base replies i pageToken pages
  made : requests = requestsFrom base pageToken pages
  collected : items = all ++ pages.flatMap ExportPage.items
  atMost : items.length ≤ maxLimit
  within : pages.length ≤ turns
  unseen : ∀ token ∈ pages.dropLast.map ExportPage.nextPageToken, token ∉ seen

/-- **The loop succeeds only on the pages of an export.** -/
theorem exports_of_exportPages {turns i : Nat} {all items : List ExportItem} {pageToken : Bytes}
    {seen : List Bytes} {requests : List ExportRequest}
    (h : exportPages lib base replies turns i all pageToken seen = (requests, .ok items)) :
    ∃ pages, Exports lib base replies turns i all pageToken seen pages requests items := by
  induction turns generalizing i all pageToken seen requests with
  | zero => cases h
  | succ turns ih =>
    rw [exportPages] at h
    dsimp only at h
    split at h
    · cases h
    · next resp hresp =>
      split_ifs at h with herror hlimit hcomplete htoken hseen
      · cases h
      · cases h
      · obtain ⟨rfl, hitems⟩ := Prod.mk.inj h
        cases hitems
        refine ⟨[resp], exportPages_singleton.mpr ⟨not_not.mp herror, hcomplete⟩, ⟨hresp, trivial⟩,
          rfl, by simp,
          ?_, by simp, by simp⟩
        rw [List.length_append]
        omega
      · cases h
      · cases h
      · obtain ⟨rfl, hitems⟩ := Prod.mk.inj h
        obtain ⟨pages, hpages⟩ := ih (Prod.ext rfl hitems)
        have hne := hpages.wellFormed.ne_nil
        have hnew : resp.nextPageToken ∉ pages.dropLast.map ExportPage.nextPageToken := fun hmem =>
          hpages.unseen _ hmem List.mem_cons_self
        refine ⟨resp :: pages,
          (exportPages_cons hne).mpr ⟨not_not.mp herror, Bool.eq_false_iff.mpr hcomplete, htoken,
          hnew, hpages.wellFormed⟩, ⟨hresp, hpages.answered⟩, ?_, ?_, hpages.atMost,
            Nat.succ_le_succ hpages.within, ?_⟩
        · exact congrArg _ hpages.made
        · rw [hpages.collected, List.flatMap_cons, List.append_assoc]
        · rw [List.dropLast_cons_of_ne_nil hne, List.map_cons]
          exact List.forall_mem_cons.mpr ⟨hseen, fun token htoken hold =>
            hpages.unseen token htoken (List.mem_cons_of_mem _ hold)⟩

/-- **On the pages of an export the loop succeeds.** -/
theorem exportPages_of_exports {turns i : Nat} {all items : List ExportItem} {pageToken : Bytes}
    {seen : List Bytes} {requests : List ExportRequest}
    (h : Exports lib base replies turns i all pageToken seen pages requests items) :
    exportPages lib base replies turns i all pageToken seen = (requests, .ok items) := by
  induction pages generalizing turns i all pageToken seen requests with
  | nil => exact absurd rfl h.wellFormed.ne_nil
  | cons page pages ih =>
    obtain ⟨hpages, ⟨hresp, hanswered⟩, rfl, rfl, hatMost, hturns, hunseen⟩ := h
    obtain ⟨turns, rfl⟩ : ∃ n, turns = n + 1 :=
      ⟨turns - 1, by rw [List.length_cons] at hturns; omega⟩
    have hlimit : ¬ maxLimit < all.length + page.items.length := by
      rw [List.flatMap_cons, List.length_append, List.length_append] at hatMost
      omega
    rw [exportPages]
    simp only [hresp, if_neg hlimit]
    by_cases hne : pages = []
    · subst hne
      obtain ⟨herror, hcomplete⟩ := exportPages_singleton.mp hpages
      simp [herror, hcomplete, requestsFrom]
    · obtain ⟨herror, hcomplete, htoken, hnew, hrest⟩ := (exportPages_cons hne).mp hpages
      rw [List.dropLast_cons_of_ne_nil hne, List.map_cons] at hunseen
      obtain ⟨hfirst, hunseen⟩ := List.forall_mem_cons.mp hunseen
      have hitems : all ++ (page :: pages).flatMap ExportPage.items
          = (all ++ page.items) ++ pages.flatMap ExportPage.items := by
        rw [List.flatMap_cons, List.append_assoc]
      have hunseen' : ∀ token ∈ pages.dropLast.map ExportPage.nextPageToken,
          token ∉ page.nextPageToken :: seen := by
        intro token hmem
        refine List.not_mem_cons_of_ne_of_not_mem ?_ (hunseen token hmem)
        rintro rfl
        exact hnew hmem
      have htail := ih
        ⟨hrest, hanswered, rfl, hitems, hatMost, Nat.le_of_succ_le_succ hturns, hunseen'⟩
      simp [herror, hcomplete, htoken, hfirst, htail, requestsFrom]

theorem length_requestsFrom (pageToken : Bytes) (pages : List ExportPage) :
    (requestsFrom base pageToken pages).length = pages.length := by
  induction pages generalizing pageToken with
  | nil => rfl
  | cons page pages ih => exact congrArg Nat.succ (ih _)

theorem tokens_requestsFrom (pageToken : Bytes) (hne : pages ≠ []) :
    (requestsFrom base pageToken pages).map ExportRequest.pageToken
      = pageToken :: pages.dropLast.map ExportPage.nextPageToken := by
  induction pages generalizing pageToken with
  | nil => exact absurd rfl hne
  | cons page pages ih =>
    by_cases hrest : pages = []
    · subst hrest
      rfl
    · rw [requestsFrom, List.map_cons, ih _ hrest, List.dropLast_cons_of_ne_nil hrest,
        List.map_cons]

theorem ExportPages.tokens_nodup (h : ExportPages pages) :
    ((requestsFrom base [] pages).map ExportRequest.pageToken).Nodup := by
  rw [tokens_requestsFrom base [] h.ne_nil]
  refine List.nodup_cons.mpr ⟨fun hmem => ?_, h.tokens⟩
  obtain ⟨page, hpage, htoken⟩ := List.mem_map.mp hmem
  exact (h.incomplete page hpage).2 htoken

/-- **An export of several pages** succeeds exactly when there are at most so many pages, each the
answer to a request under the token of the page before, up to the first complete one, with no error
and no token missing or given twice; it then gives their items in order, no more than the limit. -/
theorem exportAll_ok_iff (subscription : Except Bytes Unit) (requests : List ExportRequest)
    (items : List ExportItem) :
    exportAll lib base replies subscription = (requests, .ok items) ↔
      subscription = .ok () ∧ ∃ pages, ExportPages pages ∧ Answered lib base replies 0 [] pages ∧
        requests = requestsFrom base [] pages ∧ (requests.map ExportRequest.pageToken).Nodup ∧
        items = pages.flatMap ExportPage.items ∧ items.length ≤ maxLimit ∧
        requests.length ≤ maxExportPages := by
  constructor
  · intro h
    match subscription with
    | .error _ => cases h
    | .ok () =>
      obtain ⟨pages, hpages⟩ := exports_of_exportPages lib base replies h
      refine ⟨rfl, pages, hpages.wellFormed, hpages.answered, hpages.made, ?_, hpages.collected,
        hpages.atMost, ?_⟩
      · rw [hpages.made]
        exact hpages.wellFormed.tokens_nodup base
      · rw [hpages.made, length_requestsFrom]
        exact hpages.within
  · rintro ⟨rfl, pages, hpages, hanswered, rfl, -, rfl, hatMost, hwithin⟩
    rw [length_requestsFrom] at hwithin
    exact exportPages_of_exports lib base replies
      ⟨hpages, hanswered, rfl, rfl, hatMost, hwithin, fun _ _ => List.not_mem_nil⟩

end Loop

end OriGateway
