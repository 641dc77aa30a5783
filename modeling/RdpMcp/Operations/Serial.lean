import RdpMcp.Operations.Pipe

/-!
# The pipe is serial

However the calls on a session interleave, its worker reads **whole operations, one after the
other**: the connect command, then the full traces of the admitted calls in the order in which they
were admitted, of which only the last may be cut off (`commands_serial`). Once the lock is free
after a cut, no command is ever written again.

The argument has two halves. While the session lives, every answer an operation gets is the one it
hopes for, so what is written and what is left add up to the full trace; an operation may stop short
only where nothing was left to write (`Steady`). Once the session is finished the gate refuses every
command, so what is written stays a prefix. The one command that has passed the gate before is
written or lost, and either way it belongs to the same trace.
-/

namespace RdpMcp

open Interaction

/-! ### Traces -/

/-- The command in a request, if it is one. -/
def SessionAct.command? : SessionAct → Option JsonValue
  | command v => some v
  | _ => none

/-- The commands a program sends when nothing goes wrong. -/
def Program.trace (p : Program) : List JsonValue :=
  (p.transcript SessionAct.granted).filterMap SessionAct.command?

/-- **The complete trace of a call.** A call that is refused before it takes the lock has none. -/
def ToolCall.trace (debug : Char → String) (call : ToolCall) : List JsonValue :=
  match call.op debug with
  | .ok op => Program.trace op.run
  | .error _ => []

/-- A program that asks nothing sends nothing. -/
theorem trace_eq_nil {p : Program} (h : p.AllAsks fun _ ↦ False) : Program.trace p = [] := by
  cases p with
  | done result => rfl
  | ask request next => exact absurd h.1 not_false

/-- After a wait for a size, whatever came of it, nothing more is asked. -/
def Steady : Program → Prop
  | .done _ => True
  | .ask request next =>
    (∀ answer, Steady (next answer)) ∧
      ∀ width height, request = .awaitSize width height →
        ∀ answer, (next answer).AllAsks fun _ ↦ False

/-- A program without such a wait is steady. -/
theorem steady_of_allAsks {p : Program}
    (h : p.AllAsks fun act ↦ ∀ width height, act ≠ .awaitSize width height) : Steady p := by
  induction p with
  | done result => trivial
  | ask request next ih =>
    exact ⟨fun answer ↦ ih answer (h.2 answer),
      fun width height heq ↦ absurd heq (h.1 width height)⟩

/-- **Only a resize waits for a size.** -/
theorem allAsks_op {debug : Char → String} {call : ToolCall} {op : Operation Unit}
    (hop : call.op debug = .ok op) (hcall : ∀ width height, call ≠ .resize width height) :
    op.run.AllAsks fun act ↦ ∀ width height, act ≠ .awaitSize width height := by
  have hcommand v : ∀ width height, SessionAct.command v ≠ .awaitSize width height := nofun
  have hpause delay : ∀ width height, SessionAct.pause delay ≠ .awaitSize width height := nofun
  cases call with
  | mouseMove x y =>
    cases hop
    exact allAsks_command (hcommand _)
  | mouseClick x y button doubleClick =>
    obtain ⟨n, -, hop⟩ := Fallible.exists_of_bind_eq_ok hop
    cases hop
    exact allAsks_mouseClick hpause (hcommand _) (hcommand _) doubleClick
  | mouseDrag fromX fromY toX toY button =>
    obtain ⟨n, -, hop⟩ := Fallible.exists_of_bind_eq_ok hop
    cases hop
    exact allAsks_mouseDrag hpause (fun _ _ ↦ hcommand _) (hcommand _) (hcommand _)
  | mouseScroll x y delta vertical =>
    cases hop
    exact allAsks_command (hcommand _)
  | typeText text delayMs =>
    cases hop
    exact allAsks_typeText hpause (fun _ _ _ _ ↦ ⟨hcommand _, hcommand _⟩) delayMs
  | sendKey key modifiers action =>
    obtain ⟨stroke, -, hop⟩ := Fallible.exists_of_bind_eq_ok hop
    obtain ⟨strokes, -, hop⟩ := Fallible.exists_of_bind_eq_ok hop
    cases hop
    exact allAsks_sendKeyStroke hpause (fun _ _ _ ↦ hcommand _) action
  | resize width height => exact absurd rfl (hcall width height)

/-- **Every operation is steady.** -/
theorem steady_op {debug : Char → String} {call : ToolCall} {op : Operation Unit}
    (hop : call.op debug = .ok op) : Steady op.run := by
  cases call with
  | resize width height =>
    cases hop
    refine ⟨fun sent ↦ ?_, nofun⟩
    cases sent with
    | error e => trivial
    | ok _ =>
      refine ⟨fun size ↦ ?_, fun _ _ _ size ↦ ?_⟩
      · cases size <;> trivial
      · cases size <;> trivial
  | mouseMove | mouseClick | mouseDrag | mouseScroll | typeText | sendKey =>
    exact steady_of_allAsks (allAsks_op hop nofun)

theorem trace_of_op {debug : Char → String} {call : ToolCall} {op : Operation Unit}
    (hop : call.op debug = .ok op) : call.trace debug = Program.trace op.run := by
  rw [ToolCall.trace, hop]

/-! ### The invariant -/

section Invariant

variable (debug : Char → String) (connect : JsonValue)

/-- Where the holder stands, `written` being the part of its trace that is on the pipe: on the way
to the full trace, or cut off. -/
def OnTrack (session : SessionState) (call : ToolCall) (written : List JsonValue) : Phase → Prop
  | .entered => False
  | .running rest =>
    (Steady rest ∧ written ++ Program.trace rest = call.trace debug) ∨
      (session.finished = true ∧ written <+: call.trace debug)
  | .checked v next =>
    (∀ answer, Steady (next answer)) ∧
      written ++ v :: Program.trace (next (.ok ())) = call.trace debug
  | .sending v next =>
    (∀ answer, Steady (next answer)) ∧
      written ++ v :: Program.trace (next (.ok ())) = call.trace debug
  | .failing _ _ => written <+: call.trace debug

/-- Nobody is admitted: the last call is complete, or it was cut off and the session is finished. -/
def Idle (session : SessionState) (admitted complete : List ToolCall) (written : List JsonValue) :
    Prop :=
  (admitted = complete ∧ written = []) ∨
    (session.finished = true ∧
      ∃ call, admitted = complete ++ [call] ∧ written <+: call.trace debug)

/-- How far the admitted calls are: `complete` of them entirely, then `written`. -/
def Progress (session : SessionState) (admitted complete : List ToolCall)
    (written : List JsonValue) : Option Holder → Prop
  | none => Idle debug session admitted complete written
  | some ⟨_, .entered⟩ => Idle debug session admitted complete written
  | some ⟨call, phase⟩ =>
    admitted = complete ++ [call] ∧ (session.connected = true ∨ session.finished = true) ∧
      OnTrack debug session call written phase

/-- **The invariant of the pipe.** -/
structure Serial (s : PipeState) : Prop where
  unopened : s.opener ≠ .sent → s.session.connected = false ∧ s.commands = [] ∧ s.admitted = [] ∧
    ∀ holder ∈ s.holder, holder.phase = .entered
  opened : s.opener = .sent → ∃ complete written,
    s.commands = connect :: complete.flatMap (ToolCall.trace debug) ++ written ∧
      Progress debug s.session s.admitted complete written s.holder
  slot : s.opener ≠ .spawned → s.slot = false → s.session.disconnected = true
  closers : s.closers ≠ [] → s.session.disconnected = true

variable {debug connect} {s t : PipeState} {session session' : SessionState}
  {admitted complete : List ToolCall} {written : List JsonValue} {holder : Option Holder}

theorem Idle.follows (h : Idle debug session admitted complete written)
    (hfollows : session.Follows session') : Idle debug session' admitted complete written :=
  h.imp_right fun ⟨hfinished, h⟩ ↦ ⟨hfollows.finished hfinished, h⟩

theorem Progress.follows (h : Progress debug session admitted complete written holder)
    (hfollows : session.Follows session') :
    Progress debug session' admitted complete written holder := by
  have hlive (h : session.connected = true ∨ session.finished = true) :
      session'.connected = true ∨ session'.finished = true :=
    h.elim hfollows.connected fun h ↦ .inr (hfollows.finished h)
  match holder with
  | none => exact Idle.follows h hfollows
  | some ⟨_, .entered⟩ => exact Idle.follows h hfollows
  | some ⟨call, .running rest⟩ =>
    exact ⟨h.1, hlive h.2.1,
      h.2.2.imp_right fun ⟨hfinished, h⟩ ↦ ⟨hfollows.finished hfinished, h⟩⟩
  | some ⟨call, .checked v next⟩ => exact ⟨h.1, hlive h.2.1, h.2.2⟩
  | some ⟨call, .sending v next⟩ => exact ⟨h.1, hlive h.2.1, h.2.2⟩
  | some ⟨call, .failing e next⟩ => exact ⟨h.1, hlive h.2.1, h.2.2⟩

/-- Steps of the session, and of parties that neither run an operation nor write a command. -/
theorem Serial.frame (h : Serial debug connect s)
    (hfollows : s.session.Follows t.session)
    (hconnected : t.session.connected = true → s.session.connected = true ∨ s.opener = .sent)
    (hopener : t.opener = s.opener) (hcommands : t.commands = s.commands)
    (hadmitted : t.admitted = s.admitted) (hholder : t.holder = s.holder)
    (hslot : t.opener ≠ .spawned → t.slot = false → t.session.disconnected = true)
    (hclosers : t.closers ≠ [] → t.session.disconnected = true) :
    Serial debug connect t where
  unopened hnot := by
    rw [hopener] at hnot
    obtain ⟨hoff, hrest⟩ := h.unopened hnot
    rw [hcommands, hadmitted, hholder]
    refine ⟨?_, hrest⟩
    rcases hon : t.session.connected with - | -
    · rfl
    · rcases hconnected hon with hon | hsent
      · exact absurd hon (by simp [hoff])
      · exact absurd hsent hnot
  opened hsent := by
    rw [hopener] at hsent
    obtain ⟨complete, written, hpipe, hprogress⟩ := h.opened hsent
    rw [hcommands, hadmitted, hholder]
    exact ⟨complete, written, hpipe, hprogress.follows hfollows⟩
  slot := hslot
  closers := hclosers

/-- Steps of the holder, once it is admitted. -/
theorem Serial.advance (h : Serial debug connect s) (hsent : s.opener = .sent)
    (hopener : t.opener = s.opener) (hslot : t.slot = s.slot) (hclosers : t.closers = s.closers)
    (hfollows : s.session.Follows t.session)
    (hopened : ∃ complete written,
      t.commands = connect :: complete.flatMap (ToolCall.trace debug) ++ written ∧
        Progress debug t.session t.admitted complete written t.holder) :
    Serial debug connect t where
  unopened hnot := absurd (hopener.trans hsent) hnot
  opened _ := hopened
  slot hspawned hempty :=
    hfollows.disconnected (h.slot (hopener ▸ hspawned) (hslot ▸ hempty))
  closers hne := hfollows.disconnected (h.closers (hclosers ▸ hne))

/-- A command that is put on the pipe is put behind the others. -/
theorem commands_append (s : PipeState) (v : JsonValue) :
    PipeState.commands { s with lines := s.lines ++ [.command v] } = s.commands ++ [v] := by
  rw [PipeState.commands, List.filterMap_append]
  rfl

/-- What is cut off is a prefix, whether or not it was on the way. -/
theorem OnTrack.isPrefix {call : ToolCall} {rest : Program}
    (h : OnTrack debug session call written (.running rest)) : written <+: call.trace debug := by
  rcases h with ⟨-, heq⟩ | ⟨-, hprefix⟩
  · exact ⟨_, heq⟩
  · exact hprefix

/-- A session that has been connected refuses only when it is finished. -/
theorem finished_of_refused {e : String} (h : session.checkConnected = .error e)
    (hlive : session.connected = true ∨ session.finished = true) : session.finished = true := by
  rcases hfinished : session.finished with - | -
  · have hconnected : session.connected = true := by simpa [hfinished] using hlive
    rw [SessionState.checkConnected_eq_ok_iff.2 ⟨hconnected, hfinished⟩] at h
    cases h
  · rfl

/-- A session is connected only behind the connect command. -/
theorem Serial.sent_of_connected (h : Serial debug connect s)
    (hconnected : s.session.connected = true) : s.opener = .sent := by
  rcases eq_or_ne s.opener .sent with hsent | hnot
  · exact hsent
  · exact absurd hconnected (by simp [(h.unopened hnot).1])

/-- What is known of a holder that is admitted. -/
theorem Serial.holding (h : Serial debug connect s) {call : ToolCall} {phase : Phase}
    (hholder : s.holder = some ⟨call, phase⟩) (hphase : phase ≠ .entered) :
    s.opener = .sent ∧ ∃ complete written,
      s.commands = connect :: complete.flatMap (ToolCall.trace debug) ++ written ∧
        s.admitted = complete ++ [call] ∧
        (s.session.connected = true ∨ s.session.finished = true) ∧
        OnTrack debug s.session call written phase := by
  have hsent : s.opener = .sent := by
    rcases eq_or_ne s.opener .sent with hsent | hnot
    · exact hsent
    · exact absurd ((h.unopened hnot).2.2.2 _ hholder) hphase
  obtain ⟨complete, written, hpipe, hprogress⟩ := h.opened hsent
  rw [hholder] at hprogress
  cases phase with
  | entered => exact absurd rfl hphase
  | running | checked | sending | failing =>
    exact ⟨hsent, complete, written, hpipe, hprogress⟩

/-- The gate of `with_session`. -/
theorem Serial.enter (h : Serial debug connect s) {call : ToolCall}
    (hholder : s.holder = some ⟨call, .entered⟩)
    (hstep : s.proceed debug call .entered = some t) : Serial debug connect t := by
  rw [PipeState.proceed] at hstep
  split at hstep
  case h_1 op hop hcheck =>
    cases hstep
    obtain ⟨hconnected, hunfinished⟩ := SessionState.checkConnected_eq_ok_iff.1 hcheck
    have hsent := h.sent_of_connected hconnected
    obtain ⟨complete, written, hpipe, hprogress⟩ := h.opened hsent
    rw [hholder] at hprogress
    rcases hprogress with ⟨hadmitted, rfl⟩ | ⟨hfinished, -⟩
    · exact h.advance hsent rfl rfl rfl (.refl _) ⟨complete, [], hpipe,
        congrArg (· ++ [call]) hadmitted, .inl hconnected,
        .inl ⟨steady_op hop, (trace_of_op hop).symm⟩⟩
    · exact absurd hfinished (by simp [hunfinished])
  case h_2 =>
    cases hstep
    refine ⟨fun hnot ↦ ?_, fun hsent ↦ ?_, h.slot, h.closers⟩
    · obtain ⟨hoff, hcommands, hadmitted, -⟩ := h.unopened hnot
      exact ⟨hoff, hcommands, hadmitted, nofun⟩
    · obtain ⟨complete, written, hpipe, hprogress⟩ := h.opened hsent
      rw [hholder] at hprogress
      exact ⟨complete, written, hpipe, hprogress⟩

/-- The operation goes on. An answer it hopes for keeps it on the way; any other comes from a
finished session. -/
theorem Serial.resume (h : Serial debug connect s) {call : ToolCall} {rest : Program}
    (hholder : s.holder = some ⟨call, .running rest⟩)
    (hstep : s.proceed debug call (.running rest) = some t) : Serial debug connect t := by
  obtain ⟨hsent, complete, written, hpipe, hadmitted, hlive, htrack⟩ := h.holding hholder nofun
  have hprefix := htrack.isPrefix
  -- the holder goes on with `rest'`, on the way or cut off
  have hrun {rest' : Program} (htrack' : OnTrack debug s.session call written (.running rest')) :
      Serial debug connect (s.move call (.running rest')) :=
    h.advance hsent rfl rfl rfl (.refl _) ⟨complete, written, hpipe, hadmitted, hlive, htrack'⟩
  cases rest with
  | done result =>
    cases hstep
    refine h.advance hsent rfl rfl rfl (.refl _) ?_
    rcases htrack with ⟨-, htrace⟩ | ⟨hfinished, -⟩
    · refine ⟨complete ++ [call], [], hpipe.trans ?_, .inl ⟨hadmitted, rfl⟩⟩
      have htrace : written = call.trace debug := (List.append_nil written).symm.trans htrace
      rw [htrace, List.flatMap_append, List.flatMap_singleton, List.append_nil, List.cons_append]
    · exact ⟨complete, written, hpipe, .inr ⟨hfinished, call, hadmitted, hprefix⟩⟩
  | ask request next =>
    cases request with
    | command v =>
      rw [PipeState.proceed] at hstep
      split at hstep
      case h_1 hcheck =>
        cases hstep
        obtain ⟨-, hunfinished⟩ := SessionState.checkConnected_eq_ok_iff.1 hcheck
        rcases htrack with ⟨hsteady, htrace⟩ | ⟨hfinished, -⟩
        · exact h.advance hsent rfl rfl rfl (.refl _)
            ⟨complete, written, hpipe, hadmitted, hlive, hsteady.1, htrace⟩
        · exact absurd hfinished (by simp [hunfinished])
      case h_2 e hcheck =>
        cases hstep
        exact hrun (.inr ⟨finished_of_refused hcheck hlive, hprefix⟩)
    | pause delay =>
      cases hstep
      rcases hcheck : s.session.checkConnected with e | ok
      · exact hrun (.inr ⟨finished_of_refused hcheck hlive, hprefix⟩)
      · exact hrun (htrack.imp_left fun ⟨hsteady, htrace⟩ ↦ ⟨hsteady.1 _, htrace⟩)
    | awaitSize width height =>
      cases hstep
      refine hrun (htrack.imp_left fun ⟨hsteady, htrace⟩ ↦ ⟨hsteady.1 _, ?_⟩)
      -- nothing is sent behind the wait, whatever came of it
      have hsilent answer := trace_eq_nil (hsteady.2 width height rfl answer)
      have hrest := (hsilent (awaitSize width height s.session [])).trans
        (hsilent (.ok (width, height))).symm
      exact (congrArg (written ++ ·) hrest).trans htrace

/-- **The holder's critical sections other than a write keep the invariant.** -/
theorem Serial.proceed (h : Serial debug connect s) {call : ToolCall} {phase : Phase}
    (hholder : s.holder = some ⟨call, phase⟩) (hstep : s.proceed debug call phase = some t) :
    Serial debug connect t := by
  cases phase with
  | entered => exact h.enter hholder hstep
  | running rest => exact h.resume hholder hstep
  | checked v next =>
    obtain ⟨hsent, complete, written, hpipe, hadmitted, hlive, hsteady, htrace⟩ :=
      h.holding hholder nofun
    rw [PipeState.proceed] at hstep
    split at hstep
    case isTrue hslot =>
      cases hstep
      exact h.advance hsent rfl rfl rfl (.refl _)
        ⟨complete, written, hpipe, hadmitted, hlive, hsteady, htrace⟩
    case isFalse hslot =>
      cases hstep
      have hdead := h.slot (by simp [hsent]) (by simpa using hslot)
      exact h.advance hsent rfl rfl rfl (.refl _) ⟨complete, written, hpipe, hadmitted, hlive,
        .inr ⟨SessionState.finished_of_disconnected hdead, ⟨_, htrace⟩⟩⟩
  | sending v next => cases hstep
  | failing e next =>
    obtain ⟨hsent, complete, written, hpipe, hadmitted, -, htrack⟩ := h.holding hholder nofun
    cases hstep
    have hfinished := SessionState.finished_stop s.session (some e)
    exact h.advance hsent rfl rfl rfl (SessionState.follows_stop _ _)
      ⟨complete, written, hpipe, hadmitted, .inr hfinished, .inr ⟨hfinished, htrack⟩⟩

/-- **The holder's write keeps the invariant.** -/
theorem Serial.write (h : Serial debug connect s) {call : ToolCall} {phase : Phase}
    {failure : Option String} (hholder : s.holder = some ⟨call, phase⟩)
    (hstep : s.write call failure phase = some t) : Serial debug connect t := by
  cases phase with
  | sending v next =>
    obtain ⟨hsent, complete, written, hpipe, hadmitted, hlive, hsteady, htrace⟩ :=
      h.holding hholder nofun
    cases failure with
    | some e =>
      cases hstep
      exact h.advance hsent rfl rfl rfl (.refl _)
        ⟨complete, written, hpipe, hadmitted, hlive, ⟨_, htrace⟩⟩
    | none =>
      rw [PipeState.write] at hstep
      split at hstep
      · cases hstep
        refine h.advance hsent rfl rfl rfl (.refl _) ⟨complete, written ++ [v],
          (commands_append s v).trans ?_, hadmitted, hlive, .inl ⟨hsteady _, ?_⟩⟩
        · rw [hpipe, List.append_assoc]
        · rw [List.append_assoc]
          exact htrace
      · cases hstep
  | entered | running | checked | failing => cases hstep

/-- The opener at its slot. -/
theorem Serial.store (h : Serial debug connect s) (hstep : s.store = some t) :
    Serial debug connect t := by
  rw [PipeState.store] at hstep
  split_ifs at hstep with hnot hdead
  · have hspawned : s.opener = .spawned := by simpa using hnot
    cases hstep
    exact ⟨fun _ ↦ h.unopened (by simp [hspawned]), nofun, fun _ _ ↦ hdead, fun _ ↦ hdead⟩
  · have hspawned : s.opener = .spawned := by simpa using hnot
    cases hstep
    exact ⟨fun _ ↦ h.unopened (by simp [hspawned]), nofun, nofun, h.closers⟩

/-- The opener's send. -/
theorem Serial.sendConnect (h : Serial debug connect s) {sent : Bool}
    (hstep : s.connect connect sent = some t) : Serial debug connect t := by
  rw [PipeState.connect] at hstep
  split_ifs at hstep with hnot hfailed hinput
  · have hstored : s.opener = .stored := by simpa using hnot
    cases hstep
    exact ⟨fun _ ↦ h.unopened (by simp [hstored]), nofun,
      fun _ hslot ↦ h.slot (by simp [hstored]) hslot, h.closers⟩
  · have hstored : s.opener = .stored := by simpa using hnot
    cases hstep
    obtain ⟨-, hcommands, hadmitted, hentered⟩ := h.unopened (by simp [hstored])
    refine ⟨fun hne ↦ absurd rfl hne, fun _ ↦ ⟨[], [], ?_, ?_⟩,
      fun _ hslot ↦ h.slot (by simp [hstored]) hslot, h.closers⟩
    · exact (commands_append s connect).trans (by rw [hcommands]; rfl)
    · have hidle : Idle debug s.session s.admitted [] [] := .inl ⟨hadmitted, rfl⟩
      show Progress debug s.session s.admitted [] [] s.holder
      rcases hholder : s.holder with - | ⟨call, phase⟩
      · exact hidle
      · obtain rfl : phase = .entered := hentered _ hholder
        exact hidle

/-- A closer takes the worker, its input, or puts the disconnect line, which is no command. -/
theorem close_eq (s : PipeState) (i : ℕ) (written : Bool) (closer : Closer) :
    ∃ slot input closers lines, s.close i written closer = { s with slot, input, closers, lines } ∧
      (s.close i written closer).commands = s.commands := by
  cases closer with
  | taking =>
    rw [PipeState.close]
    split
    · exact ⟨_, _, _, _, rfl, rfl⟩
    · exact ⟨_, _, _, _, rfl, rfl⟩
  | writing =>
    refine ⟨_, _, _, _, rfl, ?_⟩
    simp only [PipeState.close, PipeState.commands]
    split
    · simp
    · rfl
  | joining => exact ⟨_, _, _, _, rfl, rfl⟩

/-- A closer. -/
theorem Serial.close (h : Serial debug connect s) {i : ℕ} {written : Bool} {closer : Closer}
    (hcloser : s.closers[i]? = some closer) : Serial debug connect (s.close i written closer) := by
  have hdead : s.session.disconnected = true :=
    h.closers (List.ne_nil_of_mem (List.mem_of_getElem? hcloser))
  obtain ⟨slot, input, closers, lines, heq, hcommands⟩ := close_eq s i written closer
  rw [heq] at hcommands ⊢
  exact h.frame (.refl _) .inl rfl hcommands rfl rfl (fun _ _ ↦ hdead) fun _ ↦ hdead

/-! ### Runs -/

variable {bits : ℕ} {fromSlice : List UInt8 → Option JsonValue}

/-- **Every action keeps the invariant.** -/
theorem Serial.step (h : Serial debug connect s) {action : PipeAction}
    (hstep : (pipeSystem bits fromSlice debug connect).step s action = some t) :
    Serial debug connect t := by
  cases action with
  | output kind partA partB =>
    simp only [pipeSystem] at hstep
    split at hstep
    · cases hstep
    case isFalse hready =>
      obtain ⟨session, hsession, rfl⟩ := Option.map_eq_some_iff.1 hstep
      obtain ⟨hfollows, hon⟩ := follows_of_handleNativeOutput hsession
      refine h.frame hfollows (fun hconnected ↦ ?_) rfl rfl rfl rfl
        (fun hspawned hslot ↦ hfollows.disconnected (h.slot hspawned hslot))
        fun hne ↦ hfollows.disconnected (h.closers hne)
      exact (hon hconnected).imp_right fun hkind ↦ by simpa [hkind] using hready
  | store => exact h.store hstep
  | connect sent => exact h.sendConnect hstep
  | arrive call =>
    simp only [pipeSystem] at hstep
    split at hstep
    · cases hstep
      exact h.frame (.refl _) .inl rfl rfl rfl rfl h.slot h.closers
    · cases hstep
  | acquire i =>
    simp only [pipeSystem] at hstep
    split at hstep
    case h_1 call hcall hfree =>
      cases hstep
      refine ⟨fun hnot ↦ ?_, fun hsent ↦ ?_, h.slot, h.closers⟩
      · obtain ⟨hoff, hcommands, hadmitted, -⟩ := h.unopened hnot
        exact ⟨hoff, hcommands, hadmitted, by rintro holder ⟨⟩; rfl⟩
      · obtain ⟨complete, written, hpipe, hprogress⟩ := h.opened hsent
        rw [hfree] at hprogress
        exact ⟨complete, written, hpipe, hprogress⟩
    case h_2 => cases hstep
  | proceed =>
    obtain ⟨holder, hholder, hstep⟩ := Option.bind_eq_some_iff.1 hstep
    exact h.proceed hholder hstep
  | write failure =>
    obtain ⟨holder, hholder, hstep⟩ := Option.bind_eq_some_iff.1 hstep
    exact h.write hholder hstep
  | shutdown =>
    cases hstep
    exact h.frame (SessionState.follows_stop _ _) nofun rfl rfl rfl rfl (fun _ _ ↦ rfl) fun _ ↦ rfl
  | close i written =>
    obtain ⟨closer, hcloser, rfl⟩ := Option.map_eq_some_iff.1 hstep
    exact h.close hcloser

theorem serial_initial : Serial debug connect {} :=
  ⟨fun _ ↦ ⟨rfl, rfl, rfl, nofun⟩, nofun, nofun, nofun⟩

theorem run_serial {actions : List PipeAction} (h : Serial debug connect s)
    (hrun : (pipeSystem bits fromSlice debug connect).run s actions = some t) :
    Serial debug connect t :=
  StepSystem.run_invariant (fun _ _ _ h hstep ↦ h.step hstep) h hrun

/-- What the pipe holds of the last admitted call is a prefix of its trace, and if nobody holds the
lock then the session is finished. -/
theorem Progress.last (h : Progress debug session admitted complete written holder) :
    (admitted = complete ∧ written = []) ∨
      ∃ call, admitted = complete ++ [call] ∧ written <+: call.trace debug ∧
        (holder = none → session.finished = true) := by
  have hidle {holder : Option Holder} (h : Idle debug session admitted complete written) :
      (admitted = complete ∧ written = []) ∨
        ∃ call, admitted = complete ++ [call] ∧ written <+: call.trace debug ∧
          (holder = none → session.finished = true) :=
    h.imp_right fun ⟨hfinished, call, hadmitted, hprefix⟩ ↦
      ⟨call, hadmitted, hprefix, fun _ ↦ hfinished⟩
  match holder, h with
  | none, h => exact hidle h
  | some ⟨_, .entered⟩, h => exact hidle h
  | some ⟨call, .running rest⟩, h => exact .inr ⟨call, h.1, h.2.2.isPrefix, nofun⟩
  | some ⟨call, .checked v next⟩, h => exact .inr ⟨call, h.1, ⟨_, h.2.2.2⟩, nofun⟩
  | some ⟨call, .sending v next⟩, h => exact .inr ⟨call, h.1, ⟨_, h.2.2.2⟩, nofun⟩
  | some ⟨call, .failing e next⟩, h => exact .inr ⟨call, h.1, h.2.2, nofun⟩

/-! ### After a cut -/

/-- A finished session with nobody admitted, and these commands on its pipe. -/
structure Frozen (commands : List JsonValue) (s : PipeState) : Prop where
  commands : s.commands = commands
  sent : s.opener = .sent
  finished : s.session.finished = true
  entered : ∀ holder ∈ s.holder, holder.phase = .entered

/-- **Nobody is admitted again, and nothing is written again.** -/
theorem Frozen.step {commands : List JsonValue} (h : Frozen commands s) {action : PipeAction}
    (hstep : (pipeSystem bits fromSlice debug connect).step s action = some t) :
    Frozen commands t := by
  cases action with
  | output kind partA partB =>
    simp only [pipeSystem] at hstep
    split at hstep
    · cases hstep
    · obtain ⟨session, hsession, rfl⟩ := Option.map_eq_some_iff.1 hstep
      exact ⟨h.commands, h.sent,
        (follows_of_handleNativeOutput hsession).1.finished h.finished, h.entered⟩
  | store =>
    have hnot : s.opener ≠ .spawned := by simp [h.sent]
    simp only [pipeSystem, PipeState.store, if_pos hnot] at hstep
    cases hstep
  | connect sent =>
    have hnot : s.opener ≠ .stored := by simp [h.sent]
    simp only [pipeSystem, PipeState.connect, if_pos hnot] at hstep
    cases hstep
  | arrive call =>
    simp only [pipeSystem] at hstep
    split at hstep
    · cases hstep
      exact ⟨h.commands, h.sent, h.finished, h.entered⟩
    · cases hstep
  | acquire i =>
    simp only [pipeSystem] at hstep
    split at hstep
    · cases hstep
      exact ⟨h.commands, h.sent, h.finished, by rintro holder ⟨⟩; rfl⟩
    · cases hstep
  | proceed =>
    obtain ⟨⟨call, phase⟩, hholder, hstep⟩ := Option.bind_eq_some_iff.1 hstep
    obtain rfl : phase = .entered := h.entered _ hholder
    obtain ⟨e, hrefused⟩ := SessionState.checkConnected_of_finished h.finished
    simp only [PipeState.proceed, hrefused] at hstep
    split at hstep
    · cases ‹Except.error e = .ok ()›
    · cases hstep
      exact ⟨h.commands, h.sent, h.finished, nofun⟩
  | write failure =>
    obtain ⟨⟨call, phase⟩, hholder, hstep⟩ := Option.bind_eq_some_iff.1 hstep
    obtain rfl : phase = .entered := h.entered _ hholder
    cases hstep
  | shutdown =>
    cases hstep
    exact ⟨h.commands, h.sent, SessionState.finished_stop _ _, h.entered⟩
  | close i written =>
    obtain ⟨closer, -, rfl⟩ := Option.map_eq_some_iff.1 hstep
    obtain ⟨slot, input, closers, lines, heq, hcommands⟩ := close_eq s i written closer
    rw [heq] at hcommands ⊢
    exact ⟨hcommands.trans h.commands, h.sent, h.finished, h.entered⟩

/-- **The commands on the pipe are serial.** In every state of every run, the worker has been sent
nothing and no call has been admitted, or it has been sent the connect command and then, for every
call in the order of admission, its complete trace; only the last admitted call's trace may be cut
off, to a proper prefix. If the operation lock is free after a cut, no run ever puts a command on
the pipe again. -/
theorem commands_serial (bits : ℕ) (fromSlice : List UInt8 → Option JsonValue)
    (debug : Char → String) (connect : JsonValue) {actions : List PipeAction}
    (hrun : (pipeSystem bits fromSlice debug connect).run {} actions = some s) :
    (s.commands = [] ∧ s.admitted = []) ∨ ∃ complete cut,
      s.commands = connect :: complete.flatMap (ToolCall.trace debug) ++ cut ∧
        ((s.admitted = complete ∧ cut = []) ∨
          ∃ call, s.admitted = complete ++ [call] ∧ cut <+: call.trace debug ∧
            cut ≠ call.trace debug ∧
            (s.holder = none → ∀ after t,
              (pipeSystem bits fromSlice debug connect).run s after = some t →
              t.commands = s.commands)) := by
  have hserial := run_serial serial_initial hrun
  rcases eq_or_ne s.opener .sent with hsent | hnot
  · obtain ⟨complete, written, hpipe, hprogress⟩ := hserial.opened hsent
    refine .inr ?_
    rcases hprogress.last with ⟨hadmitted, rfl⟩ | ⟨call, hadmitted, hprefix, hfree⟩
    · exact ⟨complete, [], hpipe, .inl ⟨hadmitted, rfl⟩⟩
    rcases eq_or_ne written (call.trace debug) with rfl | hcut
    · refine ⟨complete ++ [call], [], ?_, .inl ⟨hadmitted, rfl⟩⟩
      rw [hpipe, List.flatMap_append, List.flatMap_singleton, List.append_nil, List.cons_append]
    · refine ⟨complete, written, hpipe,
        .inr ⟨call, hadmitted, hprefix, hcut, fun hnone after t hafter ↦ ?_⟩⟩
      have hfrozen : Frozen s.commands s :=
        ⟨rfl, hsent, hfree hnone, fun holder hholder ↦ by simp [hnone] at hholder⟩
      exact (StepSystem.run_invariant (fun _ _ _ h hstep ↦ h.step hstep) hfrozen hafter).commands
  · obtain ⟨-, hcommands, hadmitted, -⟩ := hserial.unopened hnot
    exact .inl ⟨hcommands, hadmitted⟩

end Invariant

/-- A session is opened, and a click and a move overlap: both wait for the operation lock. The move
gets it first; the session is shut down when the click has pressed the button. -/
def cutClick : List PipeAction :=
  [.store, .connect true, .output msgReady [] [], .arrive (.mouseClick 1 2 "left" false),
    .arrive (.mouseMove 3 4), .acquire 1, .proceed, .proceed, .proceed, .write none, .proceed,
    .acquire 0, .proceed, .proceed, .proceed, .write none, .shutdown, .proceed, .proceed]

/-- The state behind that. -/
def cutClickPipe : PipeState :=
  ((pipeSystem 64 (fun _ ↦ none) Char.quote
    (connectCommand "host" 3389 "user" "secret" 1024 768)).run {} cutClick).getD {}

/-- The move is whole, the click is cut off behind the button's press, and nothing follows. -/
theorem commands_serial_cutClick :
    cutClickPipe.admitted = [.mouseMove 3 4, .mouseClick 1 2 "left" false] ∧
      cutClickPipe.commands = connectCommand "host" 3389 "user" "secret" 1024 768 ::
        ToolCall.trace Char.quote (.mouseMove 3 4) ++
          (ToolCall.trace Char.quote (.mouseClick 1 2 "left" false)).take 1 ∧
      (ToolCall.trace Char.quote (.mouseClick 1 2 "left" false)).length = 2 ∧
      ∀ after t, (pipeSystem 64 (fun _ ↦ none) Char.quote
        (connectCommand "host" 3389 "user" "secret" 1024 768)).run cutClickPipe after = some t →
        t.commands = cutClickPipe.commands := by
  have hrun : (pipeSystem 64 (fun _ ↦ none) Char.quote
      (connectCommand "host" 3389 "user" "secret" 1024 768)).run {} cutClick =
        some cutClickPipe :=
    rfl
  have hlength : cutClickPipe.commands.length = 3 := rfl
  refine ⟨rfl, rfl, rfl, ?_⟩
  rcases commands_serial 64 (fun _ ↦ none) Char.quote _ hrun with
    ⟨hnone, -⟩ | ⟨complete, cut, hcommands, ⟨rfl, rfl⟩ | ⟨call, -, -, -, hfrozen⟩⟩
  · rw [hnone] at hlength
    cases hlength
  · rw [hcommands] at hlength
    cases hlength
  · exact hfrozen rfl

/-- **A session that is closed while it opens is sent nothing but the disconnect line.** The opener
finds it stopped and drops the worker. -/
theorem closed_while_opening :
    ∃ s, (pipeSystem 64 (fun _ ↦ none) Char.quote
        (connectCommand "host" 3389 "user" "secret" 1024 768)).run {}
        [.shutdown, .close 0 false, .store, .close 0 true, .close 0 false] = some s ∧
      s.lines = [.disconnect] ∧ s.opener = .failed ∧ s.closers = [] ∧
      ¬∃ rest, s.commands = connectCommand "host" 3389 "user" "secret" 1024 768 :: rest :=
  ⟨_, rfl, rfl, rfl, rfl, fun ⟨_, h⟩ ↦ nomatch h⟩

end RdpMcp
