import RdpMcp.Foundations.Position
import RdpMcp.Worker.Run

/-!
# The worker's command gate

What holds at every point of a run of the worker, whatever arrives on its standard input and
whatever the native calls return (`command_gate`). The lines that are read are the lines of the
input, one after the other. The first native call is a connect and no later one is; READY follows
the connect call that succeeded, at once, and nothing else; behind a call that succeeded the loop
goes on reading; a line that is not admitted is the last thing the loop looks at; a call that fails
is reported once and ends the run; and the native runtime is shut down exactly once, behind
everything else.

`LoopTrace` says once what the loop can do. `Lawful` is the specification of one effect, with what
precedes and what follows it. What the loop reads is compared with the input by `readLines_runLoop`.
-/

open ByteReader

namespace RdpMcp

/-! ### Lines -/

section Lines

variable (fromSlice : List UInt8 → Option JsonValue)

/-- A line that is complete and not too long. -/
def Framed (line : List UInt8) : Prop :=
  line.length ≤ maxCommand ∧ line.getLast? = some 0x0a

/-- A complete line that asks for the end. -/
def Disconnects (line : List UInt8) : Prop :=
  Framed line ∧ lineKind fromSlice line = some "disconnect"

/-- A line that is handed to the native layer: complete, typed, not a disconnect, a connect exactly
if it is the first one, and without a zero byte. -/
def Admitted (connected : Bool) (line : List UInt8) : Prop :=
  Framed line ∧ ∃ kind, lineKind fromSlice line = some kind ∧ kind ≠ "disconnect" ∧
    (connected = true ↔ kind ≠ "connect") ∧ 0 ∉ line

end Lines

section Action

variable {fromSlice : List UInt8 → Option JsonValue} {connected : Bool} {line : List UInt8}

/-- What each verdict on a line says about it. -/
theorem lineAction_spec (fromSlice : List UInt8 → Option JsonValue) (connected : Bool)
    (line : List UInt8) :
    match lineAction fromSlice connected line with
    | .disconnect => Disconnects fromSlice line
    | .refuse text => ¬Admitted fromSlice connected line ∧ ¬Disconnects fromSlice line ∧
        (¬Framed line → text = invalidLength)
    | .call kind => Admitted fromSlice connected line ∧ lineKind fromSlice line = some kind ∧
        (connected = true ↔ kind ≠ "connect") := by
  rw [lineAction]
  by_cases hframed : line.length > maxCommand ∨ line.getLast? ≠ some 0x0a
  · have hnot : ¬Framed line := fun h ↦
      hframed.elim (fun hlong ↦ absurd h.1 (Nat.not_le.2 hlong)) fun hlast ↦ hlast h.2
    rw [if_pos hframed]
    exact ⟨fun h ↦ hnot h.1, fun h ↦ hnot h.1, fun _ ↦ rfl⟩
  obtain ⟨hlen, hlast⟩ := not_or.1 hframed
  have hyes : Framed line := ⟨Nat.not_lt.1 hlen, not_not.1 hlast⟩
  have huntyped {text : String} (h : lineKind fromSlice line = none) :
      ¬Admitted fromSlice connected line ∧ ¬Disconnects fromSlice line ∧
        (¬Framed line → text = invalidLength) := by
    refine ⟨fun ⟨_, kind, hkind, _⟩ ↦ ?_, fun ⟨_, hkind⟩ ↦ ?_, absurd hyes⟩
    · cases h.symm.trans hkind
    · cases h.symm.trans hkind
  rw [if_neg hframed]
  cases hslice : fromSlice line with
  | none => exact huntyped (by rw [lineKind, hslice]; rfl)
  | some value =>
    have hkind : lineKind fromSlice line = (value.index "type").asStr := by
      rw [lineKind, hslice]
      rfl
    dsimp only
    cases htype : (value.index "type").asStr with
    | none => exact huntyped (hkind.trans htype)
    | some kind =>
      rw [htype] at hkind
      dsimp only
      by_cases hdisconnect : kind = "disconnect"
      · rw [if_pos hdisconnect]
        exact ⟨hyes, hdisconnect ▸ hkind⟩
      rw [if_neg hdisconnect]
      have hstay : ¬Disconnects fromSlice line := fun h ↦
        hdisconnect (Option.some.inj (hkind.symm.trans h.2))
      by_cases horder : connected = true ∧ kind = "connect" ∨ ¬connected = true ∧ kind ≠ "connect"
      · rw [if_pos horder]
        refine ⟨fun ⟨_, kind', hkind', _, hconnected, _⟩ ↦ ?_, hstay, absurd hyes⟩
        obtain rfl : kind = kind' := Option.some.inj (hkind.symm.trans hkind')
        rcases horder with ⟨hon, hconnect⟩ | ⟨hoff, hother⟩
        · exact hconnected.1 hon hconnect
        · exact hoff (hconnected.2 hother)
      have hconnected : connected = true ↔ kind ≠ "connect" := by
        rw [not_or] at horder
        exact ⟨fun hon hconnect ↦ horder.1 ⟨hon, hconnect⟩, fun hother ↦
          by_contra fun hoff ↦ horder.2 ⟨hoff, hother⟩⟩
      rw [if_neg horder]
      by_cases hnul : 0 ∈ line
      · rw [if_pos hnul]
        exact ⟨fun ⟨_, _, _, _, _, hfree⟩ ↦ hfree hnul, hstay, absurd hyes⟩
      · rw [if_neg hnul]
        exact ⟨⟨hyes, kind, hkind, hdisconnect, hconnected, hnul⟩, hkind, hconnected⟩

theorem disconnects_of_lineAction (h : lineAction fromSlice connected line = .disconnect) :
    Disconnects fromSlice line := by
  have := lineAction_spec fromSlice connected line
  rwa [h] at this

theorem refused_of_lineAction {text : String}
    (h : lineAction fromSlice connected line = .refuse text) :
    ¬Admitted fromSlice connected line ∧ ¬Disconnects fromSlice line ∧
      (¬Framed line → text = invalidLength) := by
  have := lineAction_spec fromSlice connected line
  rwa [h] at this

theorem admitted_of_lineAction {kind : String}
    (h : lineAction fromSlice connected line = .call kind) :
    Admitted fromSlice connected line ∧ lineKind fromSlice line = some kind ∧
      (connected = true ↔ kind ≠ "connect") := by
  have := lineAction_spec fromSlice connected line
  rwa [h] at this

theorem Disconnects.not_admitted (h : Disconnects fromSlice line) :
    ¬Admitted fromSlice connected line :=
  fun ⟨_, _, hkind, hother, _⟩ ↦ hother (Option.some.inj (hkind.symm.trans h.2))

theorem not_framed_nil : ¬Framed [] :=
  fun h ↦ nomatch h.2

end Action

/-! ### What the loop can do -/

section Loop

variable {ε : Type*} (fromSlice : List UInt8 → Option JsonValue) (toVec : JsonValue → List UInt8)

/-- The traces of the loop, with or without a connect behind it. -/
inductive LoopTrace : Bool → List RunEffect → Except (RunError ε) Unit → Prop
  | unreadable (connected : Bool) (error : ε) : LoopTrace connected [] (.error (.io error))
  | eof (connected : Bool) : LoopTrace connected [.read []] (.ok ())
  | disconnect {connected : Bool} {line : List UInt8}
      (h : lineAction fromSlice connected line = .disconnect) :
      LoopTrace connected [.read line] (.ok ())
  | refuse {connected : Bool} {line : List UInt8} {text : String} (hne : line ≠ [])
      (h : lineAction fromSlice connected line = .refuse text) :
      LoopTrace connected [.read line] (.error (.bail text))
  | fail {connected : Bool} {line : List UInt8} {kind : String} {result : Int32}
      (h : lineAction fromSlice connected line = .call kind) (hresult : result ≠ 0) :
      LoopTrace connected [.read line, .native line result,
          .output msgError (errorPayload toVec (nativeFailed result)) []]
        (.error (.bail (nativeFailed result)))
  | connect {line : List UInt8} {later : List RunEffect} {outcome : Except (RunError ε) Unit}
      (h : lineAction fromSlice false line = .call "connect")
      (hlater : LoopTrace true later outcome) :
      LoopTrace false (.read line :: .native line 0 :: .output msgReady [] [] :: later) outcome
  | input {line : List UInt8} {kind : String} {later : List RunEffect}
      {outcome : Except (RunError ε) Unit} (h : lineAction fromSlice true line = .call kind)
      (hlater : LoopTrace true later outcome) :
      LoopTrace true (.read line :: .native line 0 :: later) outcome

/-- The loop does nothing else. -/
theorem loopTrace_runLoop (native : ℕ → Int32) (connected : Bool) (calls : ℕ)
    (events : List (ReadEvent UInt8 ε)) :
    LoopTrace fromSlice toVec connected (runLoop fromSlice toVec native connected calls events).1
      (runLoop fromSlice toVec native connected calls events).2 := by
  fun_induction runLoop fromSlice toVec native connected calls events with
  | case1 connected calls events error _ _ => exact .unreadable connected error
  | case2 connected calls events rest _ => exact .eof connected
  | case3 connected calls events line rest _ _ h => exact .disconnect h
  | case4 connected calls events line rest _ hne text h => exact .refuse hne h
  | case5 connected calls events line rest _ hne kind h result hresult => exact .fail h hresult
  | case6 connected calls events line rest _ hne result hresult later h ih =>
    -- a connect is called only if no command has been
    obtain rfl : connected = false := by
      have := (admitted_of_lineAction h).2.2
      exact Bool.eq_false_iff.2 fun hon ↦ this.1 hon rfl
    rw [not_not.1 hresult]
    exact .connect h ih
  | case7 connected calls events line rest _ hne kind h result hresult hkind later ih =>
    obtain rfl : connected = true := (admitted_of_lineAction h).2.2.2 hkind
    rw [not_not.1 hresult]
    exact .input h ih

/-! ### The gate -/

/-- A native call has been made. -/
def called (trace : List RunEffect) : Bool :=
  trace.any fun
    | .native _ _ => true
    | _ => false

/-- The loop goes on: it reads a line, or reading fails and is the end of it. -/
def GoesOn (outcome : Except (RunError ε) Unit) (post : List RunEffect) : Prop :=
  (∃ line later, post = .read line :: later) ∨
    post = [.shutdown] ∧ ∃ error, outcome = .error (.io error)

/-- **The specification of one effect**, in a run that ends with `outcome`, behind the effects `pre`
and in front of the effects `post`. -/
def Lawful (outcome : Except (RunError ε) Unit) (pre : List RunEffect) (effect : RunEffect)
    (post : List RunEffect) : Prop :=
  match effect with
  | .read line =>
    (Admitted fromSlice (called pre) line → ∃ result later, post = .native line result :: later) ∧
      (¬Admitted fromSlice (called pre) line →
        post = [.shutdown] ∧ (outcome = .ok () ↔ line = [] ∨ Disconnects fromSlice line) ∧
          (line ≠ [] → ¬Disconnects fromSlice line → ∃ text, outcome = .error (.bail text) ∧
            (¬Framed line → text = invalidLength)))
  | .native command result =>
    (∃ earlier, pre = earlier ++ [.read command]) ∧
      (lineKind fromSlice command = some "connect" ↔ called pre = false) ∧
      (result = 0 → called pre = false →
        ∃ later, post = .output msgReady [] [] :: later ∧ GoesOn outcome later) ∧
      (result = 0 → called pre = true → GoesOn outcome post) ∧
      (result ≠ 0 →
        post = [.output msgError (errorPayload toVec (nativeFailed result)) [], .shutdown] ∧
          outcome = .error (.bail (nativeFailed result)))
  | .output kind partA partB =>
    ∃ earlier command result, pre = earlier ++ [.native command result] ∧
      (result = 0 ∧ called earlier = false ∧ kind = msgReady ∧ partA = [] ∧ partB = [] ∨
        result ≠ 0 ∧ kind = msgError ∧ partA = errorPayload toVec (nativeFailed result) ∧
          partB = [])
  | .shutdown => post = []

section

variable {fromSlice toVec} {connected : Bool} {trace : List RunEffect}
  {outcome : Except (RunError ε) Unit}

@[simp]
theorem called_append (xs ys : List RunEffect) : called (xs ++ ys) = (called xs || called ys) :=
  List.any_append

@[simp]
theorem called_nil : called [] = false :=
  rfl

@[simp]
theorem called_read (line : List UInt8) (trace : List RunEffect) :
    called (.read line :: trace) = called trace :=
  rfl

@[simp]
theorem called_native (command : List UInt8) (result : Int32) (trace : List RunEffect) :
    called (.native command result :: trace) = true :=
  rfl

/-- A line that is not admitted is followed by the shutdown alone. -/
theorem lawful_read_of_stop {pre : List RunEffect} {line : List UInt8}
    (h : ¬Admitted fromSlice (called pre) line) (hstop : line = [] ∨ Disconnects fromSlice line) :
    Lawful fromSlice toVec (.ok () : Except (RunError ε) Unit) pre (.read line) [.shutdown] := by
  refine ⟨fun hyes ↦ absurd hyes h, fun _ ↦ ⟨rfl, iff_of_true rfl hstop, fun hne hstay ↦ ?_⟩⟩
  exact absurd hstop (not_or.2 ⟨hne, hstay⟩)

theorem lawful_read_of_refused {pre : List RunEffect} {line : List UInt8} {text : String}
    (hne : line ≠ []) (h : lineAction fromSlice (called pre) line = .refuse text) :
    Lawful fromSlice toVec (.error (.bail text) : Except (RunError ε) Unit) pre (.read line)
      [.shutdown] := by
  obtain ⟨hnot, hstay, htext⟩ := refused_of_lineAction h
  exact ⟨fun hyes ↦ absurd hyes hnot, fun _ ↦ ⟨rfl, iff_of_false nofun (not_or.2 ⟨hne, hstay⟩),
    fun _ _ ↦ ⟨text, rfl, htext⟩⟩⟩

theorem lawful_read_of_admitted {pre post : List RunEffect} {line : List UInt8} {result : Int32}
    (h : Admitted fromSlice (called pre) line) :
    Lawful fromSlice toVec outcome pre (.read line) (.native line result :: post) :=
  ⟨fun _ ↦ ⟨result, post, rfl⟩, fun hnot ↦ absurd h hnot⟩

/-- The loop begins by going on. -/
theorem LoopTrace.goesOn (h : LoopTrace fromSlice toVec connected trace outcome) :
    GoesOn outcome (trace ++ [.shutdown]) := by
  cases h with
  | unreadable connected error => exact .inr ⟨rfl, error, rfl⟩
  | _ => exact .inl ⟨_, _, rfl⟩

/-- **Every effect of the loop is lawful**, with the shutdown behind it. -/
theorem LoopTrace.lawful (h : LoopTrace fromSlice toVec connected trace outcome)
    {before : List RunEffect} (hbefore : called before = connected) :
    AtEach (Lawful fromSlice toVec outcome) before (trace ++ [.shutdown]) := by
  induction h generalizing before with
  | unreadable connected error => exact ⟨rfl, trivial⟩
  | eof connected =>
    exact ⟨lawful_read_of_stop (fun h ↦ not_framed_nil h.1) (.inl rfl), rfl, trivial⟩
  | disconnect h =>
    have hdisconnects := disconnects_of_lineAction h
    exact ⟨lawful_read_of_stop hdisconnects.not_admitted (.inr hdisconnects), rfl, trivial⟩
  | refuse hne h => exact ⟨lawful_read_of_refused hne (hbefore ▸ h), rfl, trivial⟩
  | @fail connected line kind result h hresult =>
    obtain ⟨hadmitted, hkind, hconnected⟩ := admitted_of_lineAction h
    refine ⟨lawful_read_of_admitted (hbefore ▸ hadmitted), ⟨⟨before, rfl⟩, ?_,
      fun hzero ↦ absurd hzero hresult, fun hzero ↦ absurd hzero hresult, fun _ ↦ ⟨rfl, rfl⟩⟩,
      ⟨before ++ [.read line], line, result, rfl, .inr ⟨hresult, rfl, rfl, rfl⟩⟩, rfl, trivial⟩
    -- the call that fails is the first one exactly if it is the connect
    rw [called_append, called_read, called_nil, Bool.or_false, hbefore, hkind, Option.some.injEq,
      ← Bool.not_eq_true, hconnected, not_not]
  | @connect line later outcome h hlater ih =>
    obtain ⟨hadmitted, hkind, -⟩ := admitted_of_lineAction h
    have hfirst : called (before ++ [.read line]) = false := by simp [hbefore]
    refine ⟨lawful_read_of_admitted (hbefore ▸ hadmitted), ⟨⟨before, rfl⟩,
      iff_of_true hkind hfirst, fun _ _ ↦ ⟨_, rfl, hlater.goesOn⟩, fun _ hlate ↦ ?_,
      fun hresult ↦ absurd rfl hresult⟩,
      ⟨before ++ [.read line], line, 0, rfl, .inl ⟨rfl, hfirst, rfl, rfl, rfl⟩⟩, ih ?_⟩
    · cases hfirst.symm.trans hlate
    · simp
  | @input line kind later outcome h hlater ih =>
    obtain ⟨hadmitted, hkind, hconnected⟩ := admitted_of_lineAction h
    have hlate : called (before ++ [.read line]) = true := by simp [hbefore]
    refine ⟨lawful_read_of_admitted (hbefore ▸ hadmitted), ⟨⟨before, rfl⟩,
      iff_of_false (fun hconnect ↦ ?_) (by simp [hlate]),
      fun _ hfirst ↦ ?_, fun _ _ ↦ hlater.goesOn, fun hresult ↦ absurd rfl hresult⟩, ih ?_⟩
    · exact hconnected.1 rfl (Option.some.inj (hkind.symm.trans hconnect))
    · cases hlate.symm.trans hfirst
    · simp

/-- The loop itself never shuts the native runtime down. -/
theorem LoopTrace.shutdown_not_mem (h : LoopTrace fromSlice toVec connected trace outcome) :
    .shutdown ∉ trace := by
  induction h with
  | connect h hlater ih | input h hlater ih => simpa using ih
  | _ => simp

/-- READY is not written again. -/
theorem LoopTrace.count_ready (h : LoopTrace fromSlice toVec connected trace outcome) :
    trace.count (.output msgReady [] []) ≤ if connected then 0 else 1 := by
  have hkind : msgError ≠ msgReady := by decide
  induction h with
  | connect h hlater ih => simpa using ih
  | input h hlater ih => simpa using ih
  | _ => simp [hkind]

end

/-- The results of the native calls of a trace. -/
def results (trace : List RunEffect) : List Int32 :=
  trace.filterMap fun
    | .native _ result => some result
    | _ => none

/-- The native calls get the results in their order. -/
theorem results_runLoop (native : ℕ → Int32) (connected : Bool) (calls : ℕ)
    (events : List (ReadEvent UInt8 ε)) :
    ∃ n, results (runLoop fromSlice toVec native connected calls events).1 =
      (List.range' calls n).map native := by
  fun_induction runLoop fromSlice toVec native connected calls events with
  | case1 | case2 | case3 | case4 => exact ⟨0, rfl⟩
  | case5 => exact ⟨1, rfl⟩
  | case6 connected calls events line rest _ hne result hresult later h ih
  | case7 connected calls events line rest _ hne kind h result hresult hkind later ih =>
    obtain ⟨n, hn⟩ := ih
    exact ⟨n + 1, congrArg (native calls :: ·) hn⟩

@[simp]
theorem readLines_read (line : List UInt8) (trace : List RunEffect) :
    readLines (.read line :: trace) = line :: readLines trace :=
  rfl

/-- **The loop reads the lines of its input**, one after the other; and all of them, if it is
stopped by a failure to read. -/
theorem readLines_runLoop (native : ℕ → Int32) (connected : Bool) (calls : ℕ)
    (events : List (ReadEvent UInt8 ε)) :
    let (trace, outcome) := runLoop fromSlice toVec native connected calls events
    let lines := readPieces (· == 0x0a) (maxCommand + 1) events
    readLines trace <+: lines ∧ ∀ error, outcome = .error (.io error) →
      firstFailure events = some error ∧ readLines trace = lines := by
  fun_induction runLoop fromSlice toVec native connected calls events with
  | case1 connected calls events error rest hread =>
    obtain ⟨hfailure, hnone⟩ := readPieces_of_error hread
    refine ⟨List.nil_prefix, fun error' heq ↦ ?_⟩
    cases heq
    exact ⟨hfailure, hnone.symm⟩
  | case2 connected calls events rest hread =>
    have hend := readPieces_of_end (Nat.succ_pos maxCommand) hread
    exact ⟨by rw [hend]; exact List.prefix_refl _, fun error heq ↦ by cases heq⟩
  | case3 connected calls events line rest hread hne h
  | case4 connected calls events line rest hread hne text h
  | case5 connected calls events line rest hread hne kind h result hresult =>
    have hline := readPieces_of_ok hread hne
    exact ⟨by rw [hline]; exact List.prefix_append [line] _, fun error heq ↦ by cases heq⟩
  | case6 connected calls events line rest hread hne result hresult later h ih
  | case7 connected calls events line rest hread hne kind h result hresult hkind later ih =>
    have hline := readPieces_of_ok hread hne
    obtain ⟨hlater, hio⟩ := ih
    refine ⟨?_, fun error heq ↦ ?_⟩
    · rw [hline]
      exact List.cons_prefix_cons.2 ⟨rfl, hlater⟩
    · obtain ⟨hfailure, hall⟩ := hio error heq
      have hreads := reads_readUntil (· == 0x0a) (maxCommand + 1) events
      rw [hread] at hreads
      exact ⟨hreads.2.2.1 ▸ hfailure, by rw [hline]; exact congrArg (line :: ·) hall⟩

/-- **The command gate.** What is read are the lines of the input in their order; the end of the
input, which is read as an empty line, comes behind all of its bytes. The loop goes on reading until
an effect ends it, and stops at a failure to read only behind all lines. The native calls of a run
get the given results in their order. Every effect of the run is lawful, READY is written at most
once, and the native runtime is shut down exactly once, at the end. -/
theorem command_gate (native : ℕ → Int32) (events : List (ReadEvent UInt8 ε)) :
    let (trace, outcome) := run fromSlice toVec native 1 0 events
    let lines := readPieces (· == 0x0a) (maxCommand + 1) events
    readLines trace <+: lines ∧ ([] ∈ readLines trace → (readLines trace).flatten = bytes events) ∧
      GoesOn outcome trace ∧
      (∀ error, outcome = .error (.io error) →
        firstFailure events = some error ∧ readLines trace = lines) ∧
      (∃ n, results trace = (List.range n).map native) ∧
      (∀ pre effect post, trace = pre ++ effect :: post →
        Lawful fromSlice toVec outcome pre effect post) ∧
      trace.count (.output msgReady [] []) ≤ 1 ∧
      ∃ body, trace = body ++ [.shutdown] ∧ .shutdown ∉ body := by
  have htrace := loopTrace_runLoop fromSlice toVec native false 0 events
  have hreads := readLines_runLoop fromSlice toVec native false 0 events
  obtain ⟨n, hn⟩ := results_runLoop fromSlice toVec native false 0 events
  simp only [run, ne_eq, not_true_eq_false, if_false]
  have hlines : readLines ((runLoop fromSlice toVec native false 0 events).1 ++ [.shutdown]) =
      readLines (runLoop fromSlice toVec native false 0 events).1 := by
    rw [readLines, List.filterMap_append]
    exact List.append_nil _
  rw [hlines]
  refine ⟨hreads.1, flatten_of_nil_mem (Nat.succ_pos maxCommand) hreads.1, htrace.goesOn,
    hreads.2, ⟨n, ?_⟩, atEach_iff.1 (htrace.lawful rfl), ?_, _, rfl, htrace.shutdown_not_mem⟩
  · rw [results, List.filterMap_append, List.range_eq_range', ← hn]
    exact List.append_nil _
  · rw [List.count_append]
    exact htrace.count_ready

end Loop

end RdpMcp
