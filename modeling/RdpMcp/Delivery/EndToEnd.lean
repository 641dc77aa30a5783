import RdpMcp.Delivery.Events
import RdpMcp.Delivery.Lasting

/-!
# From tool calls to FreeRDP

The whole way of input, over every interleaving: tool calls on a session, its operation lock, the
worker's standard input, the worker's loop, the native library. **FreeRDP is handed the events of
the admitted calls, in their order, from the first on, and nothing else** (`input_delivered`),
however the calls overlap, whoever closes the session meanwhile, however the bytes arrive and where
they are cut, whatever FreeRDP answers, and whenever the connection is lost. When no call is under
way on a live session and the worker has read its input, nothing is missing either.

A run of the loop makes its native calls in order, each finds the native library in a state of its
own, and what FreeRDP is handed is what the calls hand over, one after the other (`handed`). The
states are those of a connection that lasts until it is lost (`Lasting`). What the calls return is
what the loop is told (`Answers`); that is needed only for the second part, since a call that fails
ends the loop.
-/

open ByteReader

namespace RdpMcp

/-! ### The native library under the loop -/

/-- The native calls of a trace, with their results. -/
def nativeCalls (trace : List RunEffect) : List (List UInt8 × Int32) :=
  trace.filterMap fun
    | .native command result => some (command, result)
    | _ => none

section Calls

variable (api : FreeRdp) (states : ℕ → NativeState) (strtod : List UInt8 → CDouble × ℕ)

/-- What FreeRDP is handed by native calls, the first of which is the `i`-th. -/
def handed : ℕ → List (List UInt8 × Int32) → List InputEvent
  | _, [] => []
  | i, (text, _) :: calls =>
    handedBy (rdpMcpNativeCommand api (states i) strtod text) ++ handed (i + 1) calls

/-- The results of native calls are those of the native library. -/
def Answers : ℕ → List (List UInt8 × Int32) → Prop
  | _, [] => True
  | i, (text, result) :: calls =>
    (rdpMcpNativeCommand api (states i) strtod text).map Prod.fst = some result.toInt ∧
      Answers (i + 1) calls

end Calls

/-! ### The lines -/

namespace PipeLine

/-- The command in a line. -/
def command? : PipeLine → Option JsonValue
  | command v => some v
  | disconnect => none

/-- What a line says. -/
def value : PipeLine → JsonValue
  | command v => v
  | disconnect => typed "disconnect"

end PipeLine

/-- What is on the worker's input. -/
def PipeState.text (toVec : JsonValue → List UInt8) (s : PipeState) : List UInt8 :=
  commandLines toVec (s.lines.map PipeLine.value)

section Serve

variable {ε : Type} {api : FreeRdp} {states : ℕ → NativeState}
  {strtod : List UInt8 → CDouble × ℕ} {toVec : JsonValue → List UInt8} {native : ℕ → Int32}

theorem handed_of_lost {i : ℕ} (h : ∀ j, i ≤ j → (states j).connected = false)
    (calls : List (List UInt8 × Int32)) : handed api states strtod i calls = [] := by
  induction calls generalizing i with
  | nil => rfl
  | cons call calls ih =>
    rw [handed, handedBy_of_lost (h i le_rfl), ih fun j hj ↦ h j (Nat.le_of_succ_le hj)]
    rfl

/-- A line that says disconnect ends the run over the values. -/
theorem nativeCalls_disconnect (connected : Bool) (i : ℕ) (values : List JsonValue) :
    nativeCalls (serve (ε := ε) toVec native connected i (typed "disconnect" :: values)).1 = [] :=
  rfl

variable (ε toVec native) in
/-- What is handed over behind the `i`-th call, if there is anything behind it. -/
theorem exists_serve_command {command : SentCommand} (h : command.IsInput) (i : ℕ)
    (values : List JsonValue) :
    ∃ calls, nativeCalls (serve (ε := ε) toVec native true i (command.value :: values)).1 =
        (commandLine toVec command.value, native i) :: calls ∧
      (native i ≠ 0 → calls = []) ∧
      (native i = 0 → calls = nativeCalls (serve (ε := ε) toVec native true (i + 1) values).1) := by
  obtain ⟨kind, hkind, haction⟩ := valueAction_value h
  rw [serve, haction]
  dsimp only
  by_cases hresult : native i ≠ 0
  · rw [if_pos hresult]
    exact ⟨[], rfl, fun _ ↦ rfl, fun hzero ↦ absurd hzero hresult⟩
  · rw [if_neg hresult, if_neg hkind]
    exact ⟨_, rfl, fun hne ↦ absurd hne hresult, fun _ ↦ rfl⟩

variable (hstrtod : StrtodExact strtod) (htoVec : Serializes toVec)
include hstrtod htoVec

variable (ε api native) in
/-- **Behind the connect command, FreeRDP is handed the beginning of the events of the commands.**
By induction on the lines: a disconnect line, a failed call and a lost connection are the ways in
which the rest can be missing. -/
theorem handed_isPrefix (hlasting : Lasting states) {lines : List PipeLine}
    {sent : List SentCommand}
    (hlines : lines.filterMap PipeLine.command? = sent.map SentCommand.value)
    (hinput : ∀ command ∈ sent, command.IsInput) {i : ℕ} (hi : 0 < i) :
    handed api states strtod i
        (nativeCalls (serve (ε := ε) toVec native true i (lines.map PipeLine.value)).1) <+:
      sent.flatMap SentCommand.inputs := by
  induction lines generalizing sent i with
  | nil => exact List.nil_prefix
  | cons line lines ih =>
    cases line with
    | disconnect =>
      rw [List.map_cons, PipeLine.value, nativeCalls_disconnect]
      exact List.nil_prefix
    | command v =>
      cases sent with
      | nil => cases hlines
      | cons command sent =>
        obtain ⟨rfl, hrest⟩ := List.cons.inj hlines
        obtain ⟨hcommand, hinput⟩ := List.forall_mem_cons.1 hinput
        obtain ⟨calls, hcalls, hfailed, hdone⟩ := exists_serve_command ε toVec native hcommand i
          (lines.map PipeLine.value)
        rw [List.map_cons, PipeLine.value, hcalls, handed, List.flatMap_cons]
        rcases hlasting.live i hi with hlive | hlost
        · rw [handedBy_value hlive hstrtod htoVec hcommand, List.prefix_append_right_inj]
          by_cases hresult : native i = 0
          · rw [hdone hresult]
            exact ih hrest hinput (Nat.succ_pos i)
          · rw [hfailed hresult]
            exact List.nil_prefix
        · rw [handedBy_of_lost (hlost i le_rfl),
            handed_of_lost fun j hj ↦ hlost j (Nat.le_of_succ_le hj)]
          exact List.nil_prefix

/-- The same from the connect command on, which hands over nothing. -/
theorem handed_isPrefix_first (hlasting : Lasting states) {connect : JsonValue}
    (hconnect : ∃ action, valueAction false connect = .call action ∧ action = "connect")
    {lines : List PipeLine} {sent : List SentCommand}
    (hlines : lines.filterMap PipeLine.command? <+: connect :: sent.map SentCommand.value)
    (hinput : ∀ command ∈ sent, command.IsInput) :
    handed api states strtod 0
        (nativeCalls (serve (ε := ε) toVec native false 0 (lines.map PipeLine.value)).1) <+:
      sent.flatMap SentCommand.inputs := by
  cases lines with
  | nil => exact List.nil_prefix
  | cons line lines =>
    cases line with
    | disconnect =>
      rw [List.map_cons, PipeLine.value, nativeCalls_disconnect]
      exact List.nil_prefix
    | command v =>
      obtain ⟨rfl, hrest⟩ := List.cons_prefix_cons.1 hlines
      obtain ⟨front, hfront, hlines⟩ := List.prefix_map_iff.1 hrest
      obtain ⟨_, haction, rfl⟩ := hconnect
      rw [List.map_cons, PipeLine.value, serve, haction]
      dsimp only
      by_cases hresult : native 0 ≠ 0
      · rw [if_pos hresult]
        show handedBy _ ++ [] <+: _
        rw [handedBy_of_lost hlasting.fresh]
        exact List.nil_prefix
      · rw [if_neg hresult, if_pos rfl]
        show handedBy _ ++ handed api states strtod 1 (nativeCalls
          (serve toVec native true 1 (lines.map PipeLine.value)).1) <+: _
        rw [handedBy_of_lost hlasting.fresh, List.nil_append]
        have hall := handed_isPrefix ε api native hstrtod htoVec hlasting hlines
          (fun command h ↦ hinput command (hfront.subset h)) Nat.one_pos
        exact hall.trans (hfront.flatMap _)

end Serve

/-! ### The bytes -/

section Bytes

variable {ε : Type} {fromSlice : List UInt8 → Option JsonValue} {toVec : JsonValue → List UInt8}
  {native : ℕ → Int32} {events : List (ReadEvent UInt8 ε)}

/-- The end of a run makes no native call. -/
theorem nativeCalls_orElse (first : List RunEffect × Option (Except (RunError ε) Unit))
    {tail : List RunEffect × Except (RunError ε) Unit} (htail : nativeCalls tail.1 = []) :
    nativeCalls (dropped (orElse first tail)).1 = nativeCalls first.1 := by
  obtain ⟨trace, _ | outcome⟩ := first
  · show nativeCalls ((trace ++ tail.1) ++ [.shutdown]) = _
    rw [nativeCalls, List.filterMap_append, List.filterMap_append]
    exact (congrArg (nativeCalls trace ++ · ++ []) htail).trans (by simp)
  · show nativeCalls (trace ++ [.shutdown]) = _
    rw [nativeCalls, List.filterMap_append]
    exact List.append_nil _

theorem nativeCalls_cutTail (line : List UInt8) (c : ℕ) :
    nativeCalls (cutTail (ε := ε) line c).1 = [] := by
  rw [cutTail]
  split <;> rfl

variable (native) in
/-- **A run makes the native calls of the values that have wholly arrived.** A piece of a line
behind them makes none. -/
theorem nativeCalls_run_cut {values : List JsonValue} {value : JsonValue}
    (hsent : ∀ v ∈ values, Sent fromSlice toVec v) (hvalue : Sent fromSlice toVec value)
    (hrel : Reliable events) {c : ℕ} (hc : c < (commandLine toVec value).length)
    (hbytes : bytes events = commandLines toVec values ++ (commandLine toVec value).take c) :
    nativeCalls (run fromSlice toVec native 1 0 events).1 =
      nativeCalls (serve (ε := ε) toVec native false 0 values).1 := by
  obtain ⟨connected, calls, later, hlater, hlaterbytes, hloop⟩ := runLoop_commandLines native
    false 0 hrel hsent hbytes
  rw [run_eq_dropped, hloop, runLoop_cutTail hlater hvalue hc hlaterbytes]
  exact nativeCalls_orElse _ (nativeCalls_cutTail _ _)

variable (native) in
/-- The same where nothing is cut off. -/
theorem nativeCalls_run_eq {values : List JsonValue}
    (hsent : ∀ v ∈ values, Sent fromSlice toVec v) (hrel : Reliable events)
    (hbytes : bytes events = commandLines toVec values) :
    nativeCalls (run fromSlice toVec native 1 0 events).1 =
      nativeCalls (serve (ε := ε) toVec native false 0 values).1 := by
  obtain ⟨connected, calls, later, hlater, hlaterbytes, hloop⟩ := runLoop_commandLines native
    false 0 hrel hsent (hbytes.trans (List.append_nil _).symm)
  rw [run_eq_dropped, hloop, runLoop_of_end hlater hlaterbytes]
  exact nativeCalls_orElse _ rfl

variable (native) in
/-- The values are those of the first lines. -/
theorem exists_nativeCalls_run {lines : List PipeLine}
    (hsent : ∀ line ∈ lines, Sent fromSlice toVec line.value) (hrel : Reliable events)
    (hbytes : bytes events <+: commandLines toVec (lines.map PipeLine.value)) :
    ∃ taken, taken <+: lines ∧
      (bytes events = commandLines toVec (lines.map PipeLine.value) → taken = lines) ∧
      nativeCalls (run fromSlice toVec native 1 0 events).1 =
        nativeCalls (serve (ε := ε) toVec native false 0 (taken.map PipeLine.value)).1 := by
  have hvalues {some : List PipeLine} (hsome : some <+: lines) :
      ∀ value ∈ some.map PipeLine.value, Sent fromSlice toVec value := by
    rw [List.forall_mem_map]
    exact fun line hline ↦ hsent line (hsome.subset hline)
  rcases hbytes.length_le.lt_or_eq with hcut | hwhole
  · have htake := List.prefix_iff_eq_take.1 hbytes
    obtain ⟨before, value, after, c, hsplit, hc, hlength, hcutbytes⟩ := exists_cut_flatMap hcut
    obtain ⟨taken, rest, rfl, rfl, hrest⟩ := List.map_eq_append_iff.1 hsplit
    obtain ⟨line, others, rfl, rfl, -⟩ := List.map_eq_cons_iff.1 hrest
    have hline : Sent fromSlice toVec line.value := hsent line (by simp)
    exact ⟨taken, List.prefix_append _ _, fun heq ↦ absurd (congrArg List.length heq) hcut.ne,
      nativeCalls_run_cut native (hvalues (List.prefix_append _ _)) hline hrel hc
        (htake.trans hcutbytes)⟩
  · exact ⟨lines, List.prefix_rfl, fun _ ↦ rfl,
      nativeCalls_run_eq native (hvalues List.prefix_rfl) hrel (hbytes.eq_of_length hwhole)⟩

end Bytes

/-! ### Nothing is missing -/

section Complete

variable {ε : Type} {api : FreeRdp} {state : NativeState} {states : ℕ → NativeState}
  {strtod : List UInt8 → CDouble × ℕ} {toVec : JsonValue → List UInt8} {native : ℕ → Int32}

/-- A command that is taken gets result zero on a live connection. -/
theorem result_value (hsend : ∀ event, api.send event) (hlive : state.Live)
    (hstrtod : StrtodExact strtod) (htoVec : Serializes toVec) {command : SentCommand}
    (h : command.Accepted) :
    (rdpMcpNativeCommand api state strtod (commandLine toVec command.value)).map Prod.fst =
      some 0 := by
  cases command with
  | connect => exact absurd h not_false
  | mouseMove x y => exact succeeds_moveCommand hlive hstrtod htoVec x y
  | mouseButton down x y button =>
    have hbutton : button.toNat ≤ 2 := h
    cases down with
    | true => exact (succeeds_buttonCommand hlive hstrtod htoVec x y hbutton).1
    | false => exact (succeeds_buttonCommand hlive hstrtod htoVec x y hbutton).2
  | mouseScroll x y delta vertical =>
    exact (succeeds_scrollCommand_iff hlive hstrtod htoVec x y delta vertical).2 h
  | key down stroke => exact succeeds_keyCommand hlive hstrtod htoVec hsend h down
  | unicodeKey down codeUnit =>
    cases down with
    | true => exact (succeeds_unicodeCommand_iff hlive hstrtod htoVec hsend codeUnit).1.2 h
    | false => exact (succeeds_unicodeCommand_iff hlive hstrtod htoVec hsend codeUnit).2.2 h
  | resize width height =>
    exact succeeds_resizeCommand hlive hstrtod htoVec (clampSize_le _) (clampSize_le _)

variable (hsend : ∀ event, api.send event) (hlive : ∀ i, 0 < i → (states i).Live)
  (hstrtod : StrtodExact strtod) (htoVec : Serializes toVec)
include hsend hlive hstrtod htoVec

/-- **Commands that are taken on a connection that lasts are handed over completely.** -/
theorem handed_eq {sent : List SentCommand} (hsent : ∀ command ∈ sent, command.Accepted) {i : ℕ}
    (hi : 0 < i)
    (hanswers : Answers api states strtod i (nativeCalls
      (serve (ε := ε) toVec native true i (sent.map SentCommand.value)).1)) :
    handed api states strtod i (nativeCalls
        (serve (ε := ε) toVec native true i (sent.map SentCommand.value)).1) =
      sent.flatMap SentCommand.inputs := by
  induction sent generalizing i with
  | nil => rfl
  | cons command sent ih =>
    obtain ⟨hcommand, hsent⟩ := List.forall_mem_cons.1 hsent
    obtain ⟨calls, hcalls, -, hdone⟩ := exists_serve_command ε toVec native hcommand.isInput i
      (sent.map SentCommand.value)
    rw [List.map_cons, hcalls, Answers] at hanswers
    have hzero : native i = 0 := by
      rw [result_value hsend (hlive i hi) hstrtod htoVec hcommand] at hanswers
      exact Int32.toInt_inj.1 (Option.some.inj hanswers.1).symm
    have hrest := hdone hzero
    rw [List.map_cons, hcalls, handed, List.flatMap_cons,
      handedBy_value (hlive i hi) hstrtod htoVec hcommand.isInput, hrest,
      ih hsent (Nat.succ_pos i) (hrest ▸ hanswers.2)]

/-- Where every command is taken, zeros are what the native library answers. -/
theorem answers_zero (sent : List SentCommand) (hsent : ∀ command ∈ sent, command.Accepted) {i : ℕ}
    (hi : 0 < i) :
    Answers api states strtod i (nativeCalls
      (serve (ε := ε) toVec (fun _ ↦ 0) true i (sent.map SentCommand.value)).1) := by
  induction sent generalizing i with
  | nil => trivial
  | cons command sent ih =>
    obtain ⟨hcommand, hsent⟩ := List.forall_mem_cons.1 hsent
    obtain ⟨calls, hcalls, -, hdone⟩ := exists_serve_command ε toVec (fun _ ↦ 0)
      hcommand.isInput i (sent.map SentCommand.value)
    rw [List.map_cons, hcalls, hdone rfl]
    exact ⟨result_value hsend (hlive i hi) hstrtod htoVec hcommand, ih hsent (Nat.succ_pos i)⟩

end Complete

/-! ### The session -/

section Session

variable {bits : ℕ} {readEvent : List UInt8 → Option JsonValue} {debug : Char → String}
  {connect : JsonValue} {s t : PipeState}

theorem mem_append_command {lines : List PipeLine} {v : JsonValue}
    (h : PipeLine.disconnect ∈ lines ++ [.command v]) : PipeLine.disconnect ∈ lines := by
  rcases List.mem_append.1 h with h | h
  · exact h
  · cases List.mem_singleton.1 h

/-- Between two writes, the holder writes nothing, and at most stops the session. -/
theorem proceed_frame {call : ToolCall} {phase : Phase}
    (hstep : s.proceed debug call phase = some t) :
    t.lines = s.lines ∧ (t.session = s.session ∨ ∃ e, t.session = s.session.stop e) := by
  cases phase with
  | entered =>
    rw [PipeState.proceed] at hstep
    split at hstep <;> cases hstep <;> exact ⟨rfl, .inl rfl⟩
  | running rest =>
    cases rest with
    | done result =>
      cases hstep
      exact ⟨rfl, .inl rfl⟩
    | ask request next =>
      cases request with
      | command v =>
        rw [PipeState.proceed] at hstep
        split at hstep <;> cases hstep <;> exact ⟨rfl, .inl rfl⟩
      | pause delay =>
        cases hstep
        exact ⟨rfl, .inl rfl⟩
      | awaitSize width height =>
        cases hstep
        exact ⟨rfl, .inl rfl⟩
  | checked v next =>
    rw [PipeState.proceed] at hstep
    split at hstep <;> cases hstep <;> exact ⟨rfl, .inl rfl⟩
  | sending v next => cases hstep
  | failing e next =>
    cases hstep
    exact ⟨rfl, .inr ⟨_, rfl⟩⟩

/-- A write puts at most a command on the input, and leaves the session alone. -/
theorem write_frame {call : ToolCall} {phase : Phase} {failure : Option String}
    (hstep : s.write call failure phase = some t) :
    (t.lines = s.lines ∨ ∃ v, t.lines = s.lines ++ [.command v]) ∧ t.session = s.session := by
  cases phase with
  | sending v next =>
    cases failure with
    | some e =>
      cases hstep
      exact ⟨.inl rfl, rfl⟩
    | none =>
      rw [PipeState.write] at hstep
      split at hstep <;> cases hstep
      exact ⟨.inr ⟨v, rfl⟩, rfl⟩
  | entered | running | checked | failing => cases hstep

/-- A disconnect line is a closer's, and nothing connects a session again. -/
theorem disconnect_step {action : PipeAction}
    (hstep : (pipeSystem bits readEvent debug connect).step s action = some t) :
    (.disconnect ∈ t.lines → .disconnect ∈ s.lines ∨ s.closers ≠ []) ∧
      (s.session.disconnected = true → t.session.disconnected = true) := by
  cases action with
  | output kind partA partB =>
    simp only [pipeSystem] at hstep
    split at hstep
    · cases hstep
    · obtain ⟨session, hsession, rfl⟩ := Option.map_eq_some_iff.1 hstep
      exact ⟨.inl, (follows_of_handleNativeOutput hsession).1.disconnected⟩
  | store =>
    simp only [pipeSystem, PipeState.store] at hstep
    split_ifs at hstep <;> cases hstep <;> exact ⟨.inl, id⟩
  | connect sent =>
    simp only [pipeSystem, PipeState.connect] at hstep
    split_ifs at hstep
    · cases hstep
      exact ⟨.inl, id⟩
    · cases hstep
      exact ⟨fun h ↦ .inl (mem_append_command h), id⟩
  | arrive call =>
    simp only [pipeSystem] at hstep
    split at hstep <;> cases hstep
    exact ⟨.inl, id⟩
  | acquire i =>
    simp only [pipeSystem] at hstep
    split at hstep <;> cases hstep
    exact ⟨.inl, id⟩
  | proceed =>
    obtain ⟨⟨call, phase⟩, -, hstep⟩ := Option.bind_eq_some_iff.1 hstep
    obtain ⟨hlines, hsession | ⟨e, hsession⟩⟩ := proceed_frame hstep
    · exact ⟨fun h ↦ .inl (hlines ▸ h), fun h ↦ hsession ▸ h⟩
    · exact ⟨fun h ↦ .inl (hlines ▸ h), fun _ ↦ hsession ▸ rfl⟩
  | write failure =>
    obtain ⟨⟨call, phase⟩, -, hstep⟩ := Option.bind_eq_some_iff.1 hstep
    obtain ⟨hlines | ⟨v, hlines⟩, hsession⟩ := write_frame hstep
    · exact ⟨fun h ↦ .inl (hlines ▸ h), fun h ↦ hsession ▸ h⟩
    · exact ⟨fun h ↦ .inl (mem_append_command (hlines ▸ h)), fun h ↦ hsession ▸ h⟩
  | shutdown =>
    cases hstep
    exact ⟨.inl, fun _ ↦ rfl⟩
  | close i written =>
    obtain ⟨closer, hcloser, rfl⟩ := Option.map_eq_some_iff.1 hstep
    have hne : s.closers ≠ [] := List.ne_nil_of_mem (List.mem_of_getElem? hcloser)
    obtain ⟨slot, input, closers, lines, heq, -⟩ := close_eq s i written closer
    rw [heq]
    exact ⟨fun _ ↦ .inr hne, id⟩

/-- **A session whose worker has been told to disconnect is disconnected.** -/
theorem disconnected_of_line {actions : List PipeAction}
    (hrun : (pipeSystem bits readEvent debug connect).run {} actions = some s)
    (hline : .disconnect ∈ s.lines) : s.session.disconnected = true := by
  have hinv : Serial debug connect s ∧
      (.disconnect ∈ s.lines → s.session.disconnected = true) := by
    refine StepSystem.run_invariant (P := fun s : PipeState ↦ Serial debug connect s ∧
      (.disconnect ∈ s.lines → s.session.disconnected = true)) ?_ ⟨serial_initial, nofun⟩ hrun
    rintro s action t ⟨hserial, hinv⟩ hstep
    obtain ⟨hlines, hstay⟩ := disconnect_step hstep
    refine ⟨hserial.step hstep, fun hmem ↦ hstay ?_⟩
    exact (hlines hmem).elim hinv hserial.closers
  exact hinv.2 hline

/-- The commands of some calls. -/
theorem flatMap_trace (calls : List ToolCall) :
    calls.flatMap (ToolCall.trace debug) =
      (calls.flatMap (ToolCall.sends debug)).map SentCommand.value := by
  rw [List.map_flatMap]
  exact congrArg (calls.flatMap ·) (funext (trace_eq_sends debug))

/-- **What is on the pipe are the commands of the admitted calls, from the first on**, and all of
them when no call is under way on a session that is not finished. -/
theorem exists_sent {actions : List PipeAction}
    (hrun : (pipeSystem bits readEvent debug connect).run {} actions = some s) :
    ∃ sent, sent <+: s.admitted.flatMap (ToolCall.sends debug) ∧
      (s.commands = [] ∨ s.commands = connect :: sent.map SentCommand.value) ∧
      (s.session.connected = true → s.commands = connect :: sent.map SentCommand.value) ∧
      (s.holder = none → s.session.finished = false →
        sent = s.admitted.flatMap (ToolCall.sends debug)) := by
  have hserial := run_serial serial_initial hrun
  rcases eq_or_ne s.opener .sent with hsent | hnot
  · obtain ⟨complete, written, hpipe, hprogress⟩ := hserial.opened hsent
    rw [List.cons_append, flatMap_trace] at hpipe
    rcases hprogress.last with ⟨hadmitted, rfl⟩ | ⟨call, hadmitted, hprefix, hfree⟩
    · rw [List.append_nil] at hpipe
      exact ⟨_, hadmitted ▸ List.prefix_rfl, .inr hpipe, fun _ ↦ hpipe, fun _ _ ↦ hadmitted ▸ rfl⟩
    · rw [trace_eq_sends] at hprefix
      obtain ⟨front, hfront, rfl⟩ := List.prefix_map_iff.1 hprefix
      rw [← List.map_append] at hpipe
      refine ⟨_, ?_, .inr hpipe, fun _ ↦ hpipe, fun hnone hlive ↦ ?_⟩
      · rw [hadmitted, List.flatMap_append, List.flatMap_singleton, List.prefix_append_right_inj]
        exact hfront
      · exact absurd (hfree hnone) (by simp [hlive])
  · obtain ⟨hoff, hcommands, hadmitted, -⟩ := hserial.unopened hnot
    rw [hadmitted]
    exact ⟨[], List.prefix_rfl, .inl hcommands, fun hon ↦ absurd hon (by simp [hoff]),
      fun _ _ ↦ rfl⟩

end Session

/-! ### The whole way -/

section Delivered

variable {ε : Type} {bits : ℕ} {readEvent : List UInt8 → Option JsonValue}
  {fromSlice : List UInt8 → Option JsonValue} {toVec : JsonValue → List UInt8}
  {debug : Char → String} {host : String} {port : UInt16} {username password : String}
  {width height : ℕ} {api : FreeRdp} {states : ℕ → NativeState}
  {strtod : List UInt8 → CDouble × ℕ} {s : PipeState}

theorem valueAction_connect (host : String) (port : UInt16) (username password : String)
    (width height : ℕ) :
    valueAction false (connectCommand host port username password width height) =
      .call "connect" := by
  rw [connectCommand_eq]
  rfl

/-- Without a disconnect line there are only commands. -/
theorem map_value_eq {lines : List PipeLine} (h : .disconnect ∉ lines) :
    lines.map PipeLine.value = lines.filterMap PipeLine.command? := by
  induction lines with
  | nil => rfl
  | cons line lines ih =>
    rw [List.mem_cons, not_or] at h
    obtain ⟨hline, hlines⟩ := h
    cases line with
    | disconnect => exact absurd rfl hline
    | command v => exact congrArg (v :: ·) (ih hlines)

/-- From the connect command on, commands that are taken are handed over completely. -/
theorem handed_eq_first {native : ℕ → Int32} (hsend : ∀ event, api.send event)
    (hlive : ∀ i, 0 < i → (states i).Live) (hstrtod : StrtodExact strtod)
    (htoVec : Serializes toVec) (hlasting : Lasting states)
    (hconnects : ∀ config, api.startConnection config = 0) {sent : List SentCommand}
    (hsent : ∀ command ∈ sent, command.Accepted)
    (hanswers : Answers api states strtod 0 (nativeCalls (serve (ε := ε) toVec native false 0
      (connectCommand host port username password width height ::
        sent.map SentCommand.value)).1)) :
    handed api states strtod 0 (nativeCalls (serve (ε := ε) toVec native false 0
        (connectCommand host port username password width height ::
          sent.map SentCommand.value)).1) =
      sent.flatMap SentCommand.inputs := by
  have hparse := parse_connectCommand host port username password width height hstrtod htoVec
  have hresult : (rdpMcpNativeCommand api (states 0) strtod
      (commandLine toVec (connectCommand host port username password width height))).map
        Prod.fst = some 0 := by
    rw [commandLine, rdpMcpNativeCommand, hlasting.initialized, hlasting.running, hparse]
    simp [runCommand, hlasting.fresh, hconnects]
  rw [serve, valueAction_connect] at hanswers ⊢
  dsimp only at hanswers ⊢
  by_cases hzero : native 0 = 0
  · rw [if_neg (not_not_intro hzero), if_pos rfl] at hanswers ⊢
    show handedBy _ ++ handed api states strtod 1 (nativeCalls
      (serve toVec native true 1 (sent.map SentCommand.value)).1) = _
    rw [handedBy_of_lost hlasting.fresh, List.nil_append]
    exact handed_eq hsend hlive hstrtod htoVec hsent Nat.one_pos hanswers.2
  · rw [if_pos hzero] at hanswers
    have hfirst : some (0 : ℤ) = some (native 0).toInt := hresult.symm.trans hanswers.1
    exact absurd (Int32.toInt_inj.1 (Option.some.inj hfirst).symm) hzero

/-- **Every line on the worker's input is a line that the worker accepts.** -/
theorem sent_of_mem_lines (htoVec : Serializes toVec) {actions : List PipeAction}
    (hrun : (pipeSystem bits readEvent debug
      (connectCommand host port username password width height)).run {} actions = some s)
    (hshort : (toVec (connectCommand host port username password width height)).length <
      maxCommand)
    (hread : ∀ line ∈ s.lines, fromSlice (commandLine toVec line.value) = some line.value) :
    ∀ line ∈ s.lines, Sent fromSlice toVec line.value := by
  intro line hline
  have hread := hread line hline
  cases line with
  | disconnect =>
    have hexact : (typed "disconnect").Exact 1 := .object (by
      rw [List.forall_mem_singleton]
      exact .string _ _)
    refine sent_of_exact htoVec hexact ?_ hread
    rw [PipeLine.value, htoVec 1 _ hexact]
    decide
  | command v =>
    have hcommand : v ∈ s.commands := List.mem_filterMap.2 ⟨.command v, hline, rfl⟩
    obtain ⟨sent, hsent, hcommands, -, -⟩ := exists_sent hrun
    rcases hcommands with hnone | hcommands
    · rw [hnone] at hcommand
      cases hcommand
    rw [hcommands, List.mem_cons, List.mem_map] at hcommand
    rcases hcommand with rfl | ⟨command, hmem, rfl⟩
    · exact sent_connectCommand htoVec hshort hread
    · obtain ⟨call, -, hcall⟩ := List.mem_flatMap.1 (hsent.subset hmem)
      exact sent_value htoVec (sends_spec debug call command hcall).1 hread

theorem inputs_admitted (debug : Char → String) (calls : List ToolCall) :
    calls.flatMap (ToolCall.inputs debug) =
      (calls.flatMap (ToolCall.sends debug)).flatMap SentCommand.inputs :=
  List.flatMap_assoc.symm

/-- No call is under way on a live session. -/
structure PipeState.Quiet (s : PipeState) : Prop where
  free : s.holder = none
  connected : s.session.connected = true
  unfinished : s.session.finished = false

section Run

variable (hstrtod : StrtodExact strtod) (htoVec : Serializes toVec) {actions : List PipeAction}
  (hrun : (pipeSystem bits readEvent debug
    (connectCommand host port username password width height)).run {} actions = some s)
  (hshort : (toVec (connectCommand host port username password width height)).length < maxCommand)
  (hread : ∀ line ∈ s.lines, fromSlice (commandLine toVec line.value) = some line.value)
  (hlasting : Lasting states) {native : ℕ → Int32} {events : List (ReadEvent UInt8 ε)}
  (hrel : Reliable events)
include hstrtod htoVec hrun hshort hread hlasting hrel

/-- FreeRDP is handed the beginning of the events of the admitted calls. -/
theorem handed_run_isPrefix (hbytes : bytes events <+: s.text toVec) :
    handed api states strtod 0 (nativeCalls (run fromSlice toVec native 1 0 events).1) <+:
      s.admitted.flatMap (ToolCall.inputs debug) := by
  obtain ⟨sent, hsent, hcommands, -, -⟩ := exists_sent hrun
  obtain ⟨taken, htaken, -, hcalls⟩ := exists_nativeCalls_run native
    (sent_of_mem_lines htoVec hrun hshort hread) hrel hbytes
  have hinput : ∀ command ∈ sent, command.IsInput := by
    intro command hcommand
    obtain ⟨call, -, hmem⟩ := List.mem_flatMap.1 (hsent.subset hcommand)
    exact (sends_spec debug call command hmem).1
  have hfront : taken.filterMap PipeLine.command? <+:
      connectCommand host port username password width height :: sent.map SentCommand.value := by
    have hfront : taken.filterMap PipeLine.command? <+: s.commands := htaken.filterMap _
    rcases hcommands with hnone | hcommands
    · rw [hnone, List.prefix_nil] at hfront
      rw [hfront]
      exact List.nil_prefix
    · exact hcommands ▸ hfront
  rw [hcalls, inputs_admitted]
  exact (handed_isPrefix_first hstrtod htoVec hlasting
    ⟨_, valueAction_connect host port username password width height, rfl⟩ hfront hinput).trans
    (hsent.flatMap SentCommand.inputs)

/-- When all is quiet and nothing can fail, it is all of them. -/
theorem handed_run_eq (hquiet : s.Quiet) (hfine : ∀ call ∈ s.admitted, call.Fine)
    (hsend : ∀ event, api.send event) (hconnects : ∀ config, api.startConnection config = 0)
    (hlive : ∀ i, 0 < i → (states i).Live) (hbytes : bytes events = s.text toVec)
    (hanswers : Answers api states strtod 0
      (nativeCalls (run fromSlice toVec native 1 0 events).1)) :
    handed api states strtod 0 (nativeCalls (run fromSlice toVec native 1 0 events).1) =
      s.admitted.flatMap (ToolCall.inputs debug) := by
  obtain ⟨sent, -, -, hconnected, hall⟩ := exists_sent hrun
  obtain ⟨taken, -, hwhole, hcalls⟩ := exists_nativeCalls_run native
    (sent_of_mem_lines htoVec hrun hshort hread) hrel (hbytes ▸ List.prefix_rfl)
  obtain rfl := hall hquiet.free hquiet.unfinished
  have haccepted : ∀ command ∈ s.admitted.flatMap (ToolCall.sends debug), command.Accepted := by
    intro command hcommand
    obtain ⟨call, hcall, hmem⟩ := List.mem_flatMap.1 hcommand
    exact (sends_spec debug call command hmem).2 (hfine call hcall)
  have hlines : s.lines.map PipeLine.value =
      connectCommand host port username password width height ::
        (s.admitted.flatMap (ToolCall.sends debug)).map SentCommand.value := by
    rw [← hconnected hquiet.connected]
    refine map_value_eq fun hline ↦ ?_
    have hdead := SessionState.finished_of_disconnected (disconnected_of_line hrun hline)
    exact absurd hdead (by simp [hquiet.unfinished])
  rw [hcalls, hwhole hbytes, hlines] at hanswers ⊢
  rw [inputs_admitted]
  exact handed_eq_first hsend hlive hstrtod htoVec hlasting hconnects haccepted hanswers

/-- **Input is delivered.** In every state of every run of a session's pipe, and for every run of
the worker on a beginning of what is on the pipe, FreeRDP is handed the events of the admitted
calls, in the order of their admission, from the first on and perhaps not all of them. They are all
of them if no call is under way on a live session, the worker has read its input, the connection has
lasted and FreeRDP takes what it is handed, and no call has typed U+0000 or scrolled by the least
`int`. -/
theorem input_delivered (hbytes : bytes events <+: s.text toVec)
    (hanswers : Answers api states strtod 0
      (nativeCalls (run fromSlice toVec native 1 0 events).1)) :
    handed api states strtod 0 (nativeCalls (run fromSlice toVec native 1 0 events).1) <+:
        s.admitted.flatMap (ToolCall.inputs debug) ∧
      (s.Quiet → (∀ call ∈ s.admitted, call.Fine) → (∀ event, api.send event) →
        (∀ config, api.startConnection config = 0) → (∀ i, 0 < i → (states i).Live) →
        bytes events = s.text toVec →
        handed api states strtod 0 (nativeCalls (run fromSlice toVec native 1 0 events).1) =
          s.admitted.flatMap (ToolCall.inputs debug)) :=
  ⟨handed_run_isPrefix hstrtod htoVec hrun hshort hread hlasting hrel hbytes,
    fun hquiet hfine hsend hconnects hlive hwhole ↦ handed_run_eq hstrtod htoVec hrun hshort hread
      hlasting hrel hquiet hfine hsend hconnects hlive hwhole hanswers⟩

end Run

end Delivered

/-! ### A click and a move -/

/-- The connection of the example. -/
def exampleConnect : JsonValue :=
  connectCommand "host" 3389 "user" "secret" 1024 768

/-- The commands of a click and a move. -/
def clickAndMove : List SentCommand :=
  [.mouseButton true 1 2 0, .mouseButton false 1 2 0, .mouseMove 3 4]

theorem accepted_clickAndMove : ∀ command ∈ clickAndMove, command.Accepted := by
  simp only [clickAndMove, List.forall_mem_cons]
  exact ⟨Nat.zero_le 2, Nat.zero_le 2, trivial, nofun⟩

/-- The values on the worker's input, from the connect command on. -/
def clickValues : List JsonValue :=
  exampleConnect :: clickAndMove.map SentCommand.value

/-- A reader of JSON for the lines of the example. -/
def readClick (line : List UInt8) : Option JsonValue :=
  clickValues.find? fun v ↦ commandLine compact v = line

theorem readClick_line : ∀ v ∈ clickValues, readClick (commandLine compact v) = some v := by
  have hlines : (clickValues.map (commandLine compact)).Nodup := by decide +kernel
  intro v hv
  obtain ⟨before, after, hsplit⟩ := List.append_of_mem hv
  rw [hsplit, List.map_append, List.map_cons, List.nodup_append] at hlines
  refine List.find?_eq_some_iff_append.2 ⟨decide_eq_true rfl, before, after, hsplit, ?_⟩
  intro earlier hearlier
  rw [Bool.not_eq_true', decide_eq_false_iff_not]
  exact hlines.2.2 _ (List.mem_map_of_mem hearlier) _ List.mem_cons_self

/-- A session is opened, and a click and a move overlap: the click has arrived last and is admitted
first. -/
def openAndClick : List PipeAction :=
  [.store, .connect true, .output msgReady [] [], .arrive (.mouseMove 3 4),
    .arrive (.mouseClick 1 2 "left" false), .acquire 1, .proceed, .proceed, .proceed, .write none,
    .proceed, .proceed, .write none, .proceed, .acquire 0, .proceed, .proceed, .proceed,
    .write none, .proceed]

/-- The pipe behind that. -/
def clickedPipe : PipeState :=
  ((pipeSystem 64 (fun _ ↦ none) Char.quote exampleConnect).run {} openAndClick).getD {}

theorem run_openAndClick :
    (pipeSystem 64 (fun _ ↦ none) Char.quote exampleConnect).run {} openAndClick =
      some clickedPipe :=
  rfl

theorem values_clickedPipe : clickedPipe.lines.map PipeLine.value = clickValues :=
  rfl

theorem admitted_clickedPipe :
    clickedPipe.admitted = [.mouseClick 1 2 "left" false, .mouseMove 3 4] :=
  rfl

theorem readClick_clickedPipe :
    ∀ line ∈ clickedPipe.lines, readClick (commandLine compact line.value) = some line.value :=
  fun _ hline ↦ readClick_line _ (values_clickedPipe ▸ List.mem_map_of_mem hline)

theorem fine_clickedPipe : ∀ call ∈ clickedPipe.admitted, call.Fine := by
  rw [admitted_clickedPipe, List.forall_mem_cons, List.forall_mem_singleton]
  exact ⟨trivial, trivial⟩

theorem length_exampleConnect : (compact exampleConnect).length < maxCommand := by
  decide +kernel

theorem sent_clickValues : ∀ v ∈ clickValues, Sent readClick compact v := by
  have htoVec : Serializes compact := fun _ _ _ ↦ rfl
  refine List.forall_mem_cons.2 ⟨?_, List.forall_mem_map.2 fun command hcommand ↦ ?_⟩
  · exact sent_connectCommand htoVec length_exampleConnect
      (readClick_line _ List.mem_cons_self)
  · exact sent_value htoVec (accepted_clickAndMove command hcommand).isInput
      (readClick_line _ (List.mem_cons_of_mem _ (List.mem_map_of_mem hcommand)))

/-- The bytes of the example, in two pieces. -/
def clickPieces : List (ReadEvent UInt8 Unit) :=
  unread ((commandLines compact clickValues).take 7)
    (unread ((commandLines compact clickValues).drop 7) [])

theorem reliable_clickPieces : Reliable clickPieces :=
  Reliable.unread (Reliable.unread nofun _) _

theorem bytes_clickPieces : bytes clickPieces = clickedPipe.text compact := by
  rw [clickPieces, bytes_unread, bytes_unread]
  exact (congrArg _ (List.append_nil _)).trans (List.take_append_drop 7 _)

/-- What the library does behind the call that connects it: the connection is made, and the event
thread looks at it while the other calls are made. -/
def clickLibraryActions : ℕ → List LibraryAction
  | 0 => List.replicate 7 (.proceed true) ++
    [.thread 0 true, .nativeCommand (some (.mouseButtonDown 1 2 0))]
  | 1 => List.replicate 3 (.proceed true) ++
    [.thread 0 true, .nativeCommand (some (.mouseButtonUp 1 2 0))]
  | 2 => List.replicate 3 (.proceed true) ++
    [.thread 0 true, .nativeCommand (some (.mouseMove 3 4))]
  | _ => []

/-- The library at each of the calls. -/
def clickLibrary : ℕ → Library
  | 0 => (librarySystem.run {} (firstCall {})).getD {}
  | i + 1 => (librarySystem.run (clickLibrary i) (clickLibraryActions i)).getD {}

theorem run_clickLibrary :
    ∀ i, librarySystem.run (clickLibrary i) (clickLibraryActions i) = some (clickLibrary (i + 1))
  | 0 | 1 | 2 | _ + 3 => rfl

/-- From the third call behind the connect command on, nothing happens any more. -/
theorem clickLibrary_add (i : ℕ) : clickLibrary (i + 3) = clickLibrary 3 := by
  induction i with
  | zero => rfl
  | succ i ih => exact ih

theorem lasting_clickLibrary : Lasting fun i ↦ (clickLibrary i).native := by
  have hfirst : librarySystem.run {} (firstCall {}) = some (clickLibrary 0) := rfl
  refine lasting_of_run hfirst run_clickLibrary (fun i ↦ ?_) fun i hi ↦ ?_
  · match i with
    | 0 | 1 | 2 => simp [clickLibraryActions, LibraryAction.IsLater, Command.IsLater]
    | i + 3 => exact fun _ hnil ↦ absurd hnil List.not_mem_nil
  · match i, hi with
    | 1, _ => exact ⟨some (.mouseButtonDown 1 2 0), by rintro _ ⟨⟩; trivial, rfl⟩
    | 2, _ => exact ⟨some (.mouseButtonUp 1 2 0), by rintro _ ⟨⟩; trivial, rfl⟩
    | i + 3, _ =>
      rw [clickLibrary_add]
      exact ⟨some (.mouseMove 3 4), by rintro _ ⟨⟩; trivial, rfl⟩

theorem live_clickLibrary : ∀ i, 0 < i → (clickLibrary i).native.Live
  | 1, _ | 2, _ => ⟨rfl, rfl, rfl, rfl, rfl⟩
  | i + 3, _ => clickLibrary_add i ▸ ⟨rfl, rfl, rfl, rfl, rfl⟩

/-- The first call succeeds. -/
theorem answer_exampleConnect :
    (rdpMcpNativeCommand sendingFreeRdp (clickLibrary 0).native strtodInteger
      (commandLine compact exampleConnect)).map Prod.fst = some 0 := by
  have hparse := parse_connectCommand "host" 3389 "user" "secret" 1024 768
    strtodExact_strtodInteger fun _ _ _ ↦ rfl
  rw [commandLine, rdpMcpNativeCommand, exampleConnect, hparse]
  rfl

/-- The answers of the example. -/
theorem answers_clickPieces :
    Answers sendingFreeRdp (fun i ↦ (clickLibrary i).native) strtodInteger 0
      (nativeCalls (run readClick compact (fun _ ↦ 0) 1 0 clickPieces).1) := by
  rw [nativeCalls_run_eq _ sent_clickValues reliable_clickPieces bytes_clickPieces]
  exact ⟨answer_exampleConnect, answers_zero (fun _ ↦ rfl) live_clickLibrary
    strtodExact_strtodInteger (fun _ _ _ ↦ rfl) clickAndMove accepted_clickAndMove Nat.one_pos⟩

/-- A click and a move overlap: FreeRDP is handed the press, the release and the move. -/
theorem input_delivered_openAndClick :
    handed sendingFreeRdp (fun i ↦ (clickLibrary i).native) strtodInteger 0
        (nativeCalls (run readClick compact (fun _ ↦ 0) 1 0 clickPieces).1) =
      [.mouse [.down, .button1] 0 1 2, .mouse [.button1] 0 1 2, .mouse [.move] 0 3 4] :=
  (input_delivered strtodExact_strtodInteger (fun _ _ _ ↦ rfl) run_openAndClick
    length_exampleConnect readClick_clickedPipe lasting_clickLibrary reliable_clickPieces
    (bytes_clickPieces ▸ List.prefix_rfl) answers_clickPieces).2 ⟨rfl, rfl, rfl⟩ fine_clickedPipe
    (fun _ ↦ rfl) (fun _ ↦ rfl) live_clickLibrary bytes_clickPieces

end RdpMcp
