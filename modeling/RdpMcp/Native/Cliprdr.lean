import RdpMcp.Foundations.StepSystem

/-!
# Clipboard data requests

The clipboard channel asks the server for data whenever the server announces something new: for the
descriptors of files, or for text. The answers come in the order of the requests and do not say what
they answer. **One flag for all requests** decides what an answer is taken for: it is set when files
are announced, and an answer that finds it set is taken for the descriptors and clears it.

Several requests can be on their way when the server's clipboard changes quickly, and then the flag
meets the wrong answer. `Answerable` is what a good state looks like: the flag is set exactly if the
first outstanding request is for descriptors, and all others are for text. `routing_iff` is the
exact condition under which a run stays in good states, and so routes every answer to its request.
-/

namespace RdpMcp

/-! ### Announcements and answers -/

/-- `CF_TEXT`. -/
def cfText : UInt32 := 1

/-- `CF_UNICODETEXT`. -/
def cfUnicodeText : UInt32 := 13

/-- One entry of a format list. -/
structure ClipFormat where
  formatId : UInt32
  formatName : Option String := none
  deriving DecidableEq, Repr

/-- What a format list offers; an identifier of zero is none. -/
structure Offer where
  hasUnicode : Bool := false
  hasText : Bool := false
  fgdFormatId : UInt32 := 0
  deriving DecidableEq, Repr

/-- One round of the search through a format list. -/
def Offer.add (offer : Offer) (format : ClipFormat) : Offer :=
  if format.formatId = cfUnicodeText then { offer with hasUnicode := true }
  else if format.formatId = cfText then { offer with hasText := true }
  else if format.formatName = some "FileGroupDescriptorW" then
    { offer with fgdFormatId := format.formatId }
  else offer

/-- What a format list offers. -/
def offerOf (formats : List ClipFormat) : Offer :=
  formats.foldl Offer.add {}

/-- The text format that is asked for. -/
def Offer.textFormatId (offer : Offer) : UInt32 :=
  if offer.hasUnicode then cfUnicodeText else cfText

/-- A request for data. -/
inductive DataRequest where
  /-- `cliprdr_file_server_has_files` asks for the descriptors. -/
  | files (formatId : UInt32)
  | text (formatId : UInt32)
  deriving DecidableEq, Repr

/-- The request asks for descriptors. -/
def DataRequest.isFiles : DataRequest → Bool
  | files _ => true
  | text _ => false

/-- `CLIPRDR_FORMAT_DATA_RESPONSE`: whether it is an OK, and its data, which may be missing. -/
structure DataResponse where
  ok : Bool
  data : Option (List UInt8)
  deriving DecidableEq, Repr

/-- The data of an answer that has some. -/
def DataResponse.content (response : DataResponse) : Option (List UInt8) :=
  if response.ok then response.data.filter (· ≠ []) else none

/-- What an answer is taken for. -/
inductive Handled where
  | files (data : List UInt8)
  | text (data : List UInt8)
  deriving DecidableEq, Repr

/-! ### The channel -/

/-- The flag, and the requests that have not been answered. -/
structure Cliprdr where
  pendingFgd : Bool := false
  outstanding : List DataRequest := []
  deriving DecidableEq, Repr

namespace Cliprdr

/-- A request is on its way if it was sent. -/
def request (s : Cliprdr) (sent : Bool) (request : DataRequest) : Cliprdr :=
  if sent then { s with outstanding := s.outstanding ++ [request] } else s

/-- `cb_server_format_list`. The acknowledgement and the request may fail to be sent; the flag stays
set if it is the request for descriptors that fails. -/
def formatList (s : Cliprdr) (formats : List ClipFormat) (acknowledged sent : Bool) : Cliprdr :=
  if !acknowledged then s
  else
    let offer := offerOf formats
    if offer.fgdFormatId ≠ 0 then
      { s with pendingFgd := true }.request sent (.files offer.fgdFormatId)
    else if offer.hasUnicode || offer.hasText then s.request sent (.text offer.textFormatId)
    else s

/-- `cb_server_format_data_response`. -/
def formatDataResponse (s : Cliprdr) (response : DataResponse) : Option Handled × Cliprdr :=
  if !response.ok then (none, { s with pendingFgd := false })
  else
    match response.data with
    | none | some [] => (none, s)
    | some data =>
      let isFgd := s.pendingFgd
      (some (if isFgd then .files data else .text data), { s with pendingFgd := false })

end Cliprdr

/-- What the server does: announce, or answer the first request that is outstanding. -/
inductive ServerAction where
  | formatList (formats : List ClipFormat) (acknowledged sent : Bool)
  | dataResponse (response : DataResponse)
  deriving DecidableEq, Repr

/-- The channel with a server that answers in order. -/
def cliprdrSystem : StepSystem Cliprdr ServerAction where
  step s
    | .formatList formats acknowledged sent => some (s.formatList formats acknowledged sent)
    | .dataResponse response =>
      match s.outstanding with
      | [] => none
      | _ :: outstanding => some { (s.formatDataResponse response).2 with outstanding }

/-! ### Good states -/

/-- Answers with data to the requests, in order, are taken for what was asked. -/
def Answerable (pendingFgd : Bool) : List DataRequest → Prop
  | [] => True
  | request :: requests => pendingFgd = request.isFiles ∧ Answerable false requests

namespace Cliprdr

/-- The channel takes the next answer for what its request asked for: if the answer has data, it is
handled as descriptors exactly if descriptors were asked for, and as text exactly if text was. -/
def Routes (s : Cliprdr) (response : DataResponse) : Prop :=
  ∀ request ∈ s.outstanding.head?, ∀ data ∈ response.content,
    (s.formatDataResponse response).1 =
      some (if request.isFiles then .files data else .text data)

/-- **The steps that keep the routing right.** Files are announced only when nothing is outstanding,
or in vain while the flag is set anyway; text is asked for only if the flag was not left behind
without an outstanding request; and a request for descriptors that has others behind it is not
answered by an OK without data. -/
def Careful (s : Cliprdr) : ServerAction → Prop
  | .formatList formats acknowledged sent =>
    acknowledged = true →
      ((offerOf formats).fgdFormatId ≠ 0 →
        s.outstanding = [] ∨ sent = false ∧ s.pendingFgd = true) ∧
      ((offerOf formats).fgdFormatId = 0 →
        ((offerOf formats).hasUnicode || (offerOf formats).hasText) = true → sent = true →
        s.outstanding = [] → s.pendingFgd = false)
  | .dataResponse response =>
    response.ok = true → response.content = none → s.pendingFgd = true → s.outstanding.length ≤ 1

end Cliprdr

theorem answerable_append_singleton {flag : Bool} {requests : List DataRequest}
    {request : DataRequest} :
    Answerable flag (requests ++ [request]) ↔ Answerable flag requests ∧
      (if requests = [] then flag else false) = request.isFiles := by
  induction requests generalizing flag with
  | nil => exact ⟨fun h ↦ ⟨trivial, h.1⟩, fun h ↦ ⟨h.2, trivial⟩⟩
  | cons first requests ih =>
    rw [List.cons_append, Answerable, Answerable, ih, if_neg (List.cons_ne_nil _ _), ite_self,
      and_assoc]

/-- With the flag set behind its answer, nothing may be outstanding. -/
theorem answerable_true_iff {requests : List DataRequest} (h : Answerable false requests) :
    Answerable true requests ↔ requests = [] := by
  cases requests with
  | nil => exact iff_of_true trivial rfl
  | cons first requests =>
    refine iff_of_false (fun htrue ↦ ?_) (List.cons_ne_nil _ _)
    cases h.1.trans htrue.1.symm

namespace Cliprdr

variable {s t : Cliprdr}

theorem content_eq_none_iff {response : DataResponse} (hok : response.ok = true) :
    response.content = none ↔ response.data = none ∨ response.data = some [] := by
  rw [DataResponse.content, if_pos hok]
  rcases response.data with - | - | ⟨byte, bytes⟩ <;> simp

/-- An announcement keeps a good state good exactly if it is careful. -/
theorem answerable_formatList_iff (h : Answerable s.pendingFgd s.outstanding)
    (formats : List ClipFormat) (acknowledged sent : Bool) :
    Answerable (s.formatList formats acknowledged sent).pendingFgd
        (s.formatList formats acknowledged sent).outstanding ↔
      s.Careful (.formatList formats acknowledged sent) := by
  rw [formatList, Careful]
  cases acknowledged with
  | false => exact iff_of_true h nofun
  | true =>
    simp only [Bool.not_true, Bool.false_eq_true, if_false, true_imp_iff]
    by_cases hfiles : (offerOf formats).fgdFormatId = 0
    · simp only [hfiles, ne_eq, not_true_eq_false, if_false, false_imp_iff, true_and, true_imp_iff]
      cases htext : (offerOf formats).hasUnicode || (offerOf formats).hasText with
      | false => exact iff_of_true h nofun
      | true =>
        simp only [if_true, true_imp_iff]
        cases sent with
        | false => exact iff_of_true h nofun
        | true =>
          rw [request, if_pos rfl, answerable_append_singleton, and_iff_right h]
          by_cases hnil : s.outstanding = []
          · simp [hnil, DataRequest.isFiles]
          · simp [hnil, DataRequest.isFiles]
    · simp only [hfiles, ne_eq, not_false_eq_true, if_true, true_imp_iff, false_imp_iff, and_true]
      -- the flag is set before it is known whether the request can be sent
      cases sent with
      | false =>
        simp only [request, Bool.false_eq_true, if_false, true_and]
        cases hflag : s.pendingFgd with
        | true =>
          rw [hflag] at h
          exact iff_of_true h (.inr rfl)
        | false =>
          rw [hflag] at h
          simpa using answerable_true_iff h
      | true =>
        rw [request, if_pos rfl, answerable_append_singleton]
        by_cases hnil : s.outstanding = []
        · simp [hnil, Answerable, DataRequest.isFiles]
        · simp [hnil, DataRequest.isFiles]

/-- An answer keeps a good state good exactly if it is careful. -/
theorem answerable_dataResponse_iff {first : DataRequest} {requests : List DataRequest}
    (houtstanding : s.outstanding = first :: requests)
    (h : Answerable s.pendingFgd s.outstanding) (response : DataResponse) :
    Answerable (s.formatDataResponse response).2.pendingFgd requests ↔
      s.Careful (.dataResponse response) := by
  rw [houtstanding] at h
  rw [formatDataResponse, Careful]
  cases hok : response.ok with
  | false => exact iff_of_true h.2 nofun
  | true =>
    simp only [Bool.not_true, Bool.false_eq_true, if_false, true_imp_iff, content_eq_none_iff hok,
      houtstanding, List.length_cons]
    -- an OK without data leaves the flag to the requests behind
    have hempty : Answerable s.pendingFgd requests ↔
        s.pendingFgd = true → requests.length + 1 ≤ 1 := by
      cases s.pendingFgd with
      | false => exact iff_of_true h.2 nofun
      | true => simpa using answerable_true_iff h.2
    rcases response.data with - | - | ⟨byte, bytes⟩
    · simpa using hempty
    · simpa using hempty
    · simpa using h.2

/-- **One step**: a good state stays good exactly if the step is careful. -/
theorem answerable_step_iff {action : ServerAction} (h : Answerable s.pendingFgd s.outstanding)
    (hstep : cliprdrSystem.step s action = some t) :
    Answerable t.pendingFgd t.outstanding ↔ s.Careful action := by
  cases action with
  | formatList formats acknowledged sent =>
    obtain rfl := Option.some.inj hstep
    exact answerable_formatList_iff h formats acknowledged sent
  | dataResponse response =>
    rw [cliprdrSystem] at hstep
    dsimp only at hstep
    split at hstep
    · cases hstep
    case h_2 first requests houtstanding =>
      obtain rfl := Option.some.inj hstep
      exact answerable_dataResponse_iff houtstanding h response

/-- An answer that finds a good state is routed to its request. -/
theorem routes_of_answerable (h : Answerable s.pendingFgd s.outstanding) (response : DataResponse) :
    s.Routes response := by
  intro request hrequest data hdata
  obtain ⟨requests, houtstanding⟩ : ∃ requests, s.outstanding = request :: requests :=
    ⟨_, (List.cons_head?_tail hrequest).symm⟩
  rw [houtstanding] at h
  rw [DataResponse.content] at hdata
  split at hdata
  case isFalse => cases hdata
  case isTrue hok =>
    obtain ⟨hdata, hne⟩ := Option.filter_eq_some_iff.1 hdata
    rw [formatDataResponse, hok, hdata, ← h.1]
    rcases data with - | ⟨byte, bytes⟩
    · simp at hne
    · rfl

/-- An answer with data. -/
def answered : DataResponse :=
  ⟨true, some [0]⟩

/-- **A state is good exactly if its requests can all be answered with data**, each routed right. -/
theorem answerable_iff_routes (s : Cliprdr) :
    Answerable s.pendingFgd s.outstanding ↔
      ∀ n t, cliprdrSystem.run s (List.replicate n (.dataResponse answered)) = some t →
        t.Routes answered := by
  constructor
  · intro h n t hrun
    induction n generalizing s with
    | zero =>
      obtain rfl := Option.some.inj hrun
      exact routes_of_answerable h answered
    | succ n ih =>
      rw [List.replicate_succ, StepSystem.run_cons_eq_some_iff] at hrun
      obtain ⟨u, hu, hrest⟩ := hrun
      exact ih u ((answerable_step_iff h hu).2 nofun) hrest
  · intro h
    obtain ⟨flag, outstanding⟩ := s
    -- the first answer shows the flag right, and leaves the others a flag that is not set
    induction outstanding generalizing flag with
    | nil => trivial
    | cons first requests ih =>
      refine ⟨?_, ih false fun n t hrun ↦ h (n + 1) t ?_⟩
      · have hroute := h 0 _ rfl first rfl [0] rfl
        cases flag with
        | true =>
          cases first with
          | files => rfl
          | text => cases hroute
        | false =>
          cases first with
          | files => cases hroute
          | text => rfl
      · rw [List.replicate_succ, StepSystem.run_cons_eq_some_iff]
        exact ⟨⟨false, requests⟩, rfl, hrun⟩

end Cliprdr

/-- **Routing.** If all steps of a run are careful, every answer in it is routed to the request it
answers. And all steps are careful exactly if at no point of the run an answer with data to one of
the requests that are outstanding there would be routed wrong. -/
theorem routing_iff (actions : List ServerAction) :
    (cliprdrSystem.StepsMeet Cliprdr.Careful {} actions →
      ∀ pre response post s, actions = pre ++ .dataResponse response :: post →
        cliprdrSystem.run {} pre = some s → s.Routes response) ∧
      (cliprdrSystem.StepsMeet Cliprdr.Careful {} actions ↔
        ∀ pre post s, actions = pre ++ post → cliprdrSystem.run {} pre = some s →
          ∀ n t, cliprdrSystem.run s (List.replicate n (.dataResponse Cliprdr.answered)) = some t →
            t.Routes Cliprdr.answered) := by
  have hiff : cliprdrSystem.StepsMeet Cliprdr.Careful {} actions ↔
      ∀ pre post s, actions = pre ++ post → cliprdrSystem.run {} pre = some s →
        Answerable s.pendingFgd s.outstanding := by
    refine StepSystem.stepsMeet_iff_forall_prefix (I := fun _ ↦ True) (fun _ _ _ _ _ ↦ trivial)
      (fun s action _ hstuck ↦ ?_) (fun s action t _ h hstep ↦ Cliprdr.answerable_step_iff h hstep)
      trivial trivial
    -- only an answer to nothing cannot be taken
    cases action with
    | formatList => cases hstuck
    | dataResponse response =>
      cases houtstanding : s.outstanding with
      | nil => exact fun _ _ _ ↦ by rw [houtstanding]; exact Nat.zero_le 1
      | cons first requests =>
        rw [cliprdrSystem] at hstuck
        simp only [houtstanding] at hstuck
        cases hstuck
  refine ⟨fun hcareful pre response post s hactions hrun ↦ ?_, hiff.trans ?_⟩
  · exact Cliprdr.routes_of_answerable (hiff.1 hcareful pre _ s hactions hrun) response
  · simp only [Cliprdr.answerable_iff_routes]

/-- Text is announced, then files, and then the text arrives. -/
def textThenFiles : List ServerAction :=
  [.formatList [⟨cfUnicodeText, none⟩] true true,
    .formatList [⟨49270, some "FileGroupDescriptorW"⟩] true true]

/-- **The text is taken for descriptors of files**, and the descriptors for text. -/
theorem textThenFiles_misrouted :
    ∃ s t, cliprdrSystem.run {} textThenFiles = some s ∧
      s.outstanding = [.text cfUnicodeText, .files 49270] ∧
      (s.formatDataResponse ⟨true, some [104, 0, 105, 0]⟩).1 = some (.files [104, 0, 105, 0]) ∧
      cliprdrSystem.step s (.dataResponse ⟨true, some [104, 0, 105, 0]⟩) = some t ∧
      (t.formatDataResponse ⟨true, some [1, 0, 0, 0]⟩).1 = some (.text [1, 0, 0, 0]) ∧
      ¬s.Routes ⟨true, some [104, 0, 105, 0]⟩ := by
  refine ⟨_, _, rfl, by decide, by decide, rfl, by decide, fun h ↦ ?_⟩
  have hroute := h (.text cfUnicodeText) (by decide) [104, 0, 105, 0] (by decide)
  exact absurd hroute (by decide)

end RdpMcp
