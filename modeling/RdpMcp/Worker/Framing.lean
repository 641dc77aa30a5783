import RdpMcp.Foundations.Position
import RdpMcp.Json.Text
import RdpMcp.Worker.Run

/-!
# Commands on the wire

What one side sends, one value a line, the other side reads back, however the bytes arrive: the run
over the bytes is the run over the values (`command_framing`). `serve` is that run over values,
which knows the checks of a value's type and of the order of commands, and neither lengths nor
newlines nor zero bytes.

The sender refuses a text of `maxCommand` bytes and the reader a line of more than `maxCommand`, the
newline included, so that **the two limits are the same one**. A stream that is cut inside a line
ends in an error if the loop gets there: a disconnect on the way ends the run before.
-/

open ByteReader

namespace RdpMcp

/-! ### Sending -/

section Sending

variable (toVec : JsonValue → List UInt8)

/-- The line of a value. -/
def commandLine (value : JsonValue) : List UInt8 :=
  toVec value ++ [0x0a]

/-- The lines of a list of values. -/
def commandLines (values : List JsonValue) : List UInt8 :=
  values.flatMap (commandLine toVec)

theorem commandLines_cons (value : JsonValue) (values : List JsonValue) :
    commandLines toVec (value :: values) = commandLine toVec value ++ commandLines toVec values :=
  rfl

/-- Send values one after the other. -/
def sendAll : List JsonValue → Option (List UInt8) → Except String Unit × Option (List UInt8)
  | [], input => (.ok (), input)
  | value :: values, input =>
    match send toVec .written value input with
    | (.ok (), input) => sendAll values input
    | (.error error, input) => (.error error, input)

variable {toVec}

theorem send_of_lt {value : JsonValue} (h : (toVec value).length < maxCommand) (sent : List UInt8) :
    send toVec .written value (some sent) = (.ok (), some (sent ++ commandLine toVec value)) := by
  rw [send, if_neg (Nat.not_le.2 h)]
  rfl

/-- **A value that is refused leaves the input alone.** Only a write that has begun and failed
leaves something else behind. -/
theorem send_of_refused {write : WriteResult} {value : JsonValue} {input : Option (List UInt8)}
    (h : (send toVec write value input).1 = .error commandTooLarge ∨
      (send toVec write value input).1 = .error workerClosed) :
    (send toVec write value input).2 = input := by
  by_cases hlong : maxCommand ≤ (toVec value).length
  · rw [send, if_pos hlong]
  · rw [send, if_neg hlong] at h ⊢
    cases input with
    | none => rfl
    | some sent =>
      cases write with
      | written => exact h.elim nofun nofun
      | failed n =>
        rcases h with h | h
        · exact absurd (Except.error.inj h) (by decide)
        · exact absurd (Except.error.inj h) (by decide)

/-- What is on the input when all values have been accepted. -/
theorem sendAll_eq_ok {values : List JsonValue} {sent : List UInt8} {input : Option (List UInt8)}
    (h : sendAll toVec values (some sent) = (.ok (), input)) :
    (∀ value ∈ values, (toVec value).length < maxCommand) ∧
      input = some (sent ++ commandLines toVec values) := by
  induction values generalizing sent with
  | nil =>
    cases h
    exact ⟨nofun, by rw [commandLines, List.flatMap_nil, List.append_nil]⟩
  | cons value values ih =>
    have hlt : (toVec value).length < maxCommand := by
      by_contra hlong
      rw [sendAll, send, if_pos (Nat.not_lt.1 hlong)] at h
      cases h
    rw [sendAll, send_of_lt hlt] at h
    obtain ⟨hvalues, hinput⟩ := ih h
    refine ⟨List.forall_mem_cons.2 ⟨hlt, hvalues⟩, ?_⟩
    rw [hinput, commandLines_cons, List.append_assoc]

end Sending

/-! ### The run over values -/

section Serving

variable {ε : Type*} (toVec : JsonValue → List UInt8) (native : ℕ → Int32)

/-- The checks of a value. -/
def valueAction (connected : Bool) (value : JsonValue) : LineAction :=
  match (value.index "type").asStr with
  | none => .refuse noType
  | some kind =>
    if kind = "disconnect" then .disconnect
    else if connected ∧ kind = "connect" ∨ ¬connected ∧ kind ≠ "connect" then .refuse connectOnce
    else .call kind

/-- **The run over values**: its trace, and its outcome if it has ended before the values have. -/
def serve (connected : Bool) (calls : ℕ) :
    List JsonValue → List RunEffect × Option (Except (RunError ε) Unit)
  | [] => ([], none)
  | value :: values =>
    let line := commandLine toVec value
    match valueAction connected value with
    | .disconnect => ([.read line], some (.ok ()))
    | .refuse text => ([.read line], some (.error (.bail text)))
    | .call kind =>
      let result := native calls
      if result ≠ 0 then
        ([.read line, .native line result,
            .output msgError (errorPayload toVec (nativeFailed result)) []],
          some (.error (.bail (nativeFailed result))))
      else if kind = "connect" then
        let later := serve true (calls + 1) values
        (.read line :: .native line result :: .output msgReady [] [] :: later.1, later.2)
      else
        let later := serve connected (calls + 1) values
        (.read line :: .native line result :: later.1, later.2)

/-- Go on with `tail` unless the run has ended. -/
def orElse (first : List RunEffect × Option (Except (RunError ε) Unit))
    (tail : List RunEffect × Except (RunError ε) Unit) :
    List RunEffect × Except (RunError ε) Unit :=
  match first with
  | (trace, some outcome) => (trace, outcome)
  | (trace, none) => (trace ++ tail.1, tail.2)

@[simp]
theorem orElse_some (trace : List RunEffect) (outcome : Except (RunError ε) Unit)
    (tail : List RunEffect × Except (RunError ε) Unit) :
    orElse (trace, some outcome) tail = (trace, outcome) :=
  rfl

/-- Effects in front go in front. -/
theorem orElse_append (effects : List RunEffect)
    (first : List RunEffect × Option (Except (RunError ε) Unit))
    (tail : List RunEffect × Except (RunError ε) Unit) :
    orElse (effects ++ first.1, first.2) tail =
      (effects ++ (orElse first tail).1, (orElse first tail).2) := by
  obtain ⟨trace, _ | outcome⟩ := first
  · exact Prod.ext (List.append_assoc _ _ _) rfl
  · rfl

end Serving

/-! ### Reading -/

section Reading

variable {ε : Type*} {fromSlice : List UInt8 → Option JsonValue} {toVec : JsonValue → List UInt8}

/-- A value that is sent in one line, and that the reader of JSON reads back. -/
structure Sent (fromSlice : List UInt8 → Option JsonValue) (toVec : JsonValue → List UInt8)
    (value : JsonValue) : Prop where
  length_lt : (toVec value).length < maxCommand
  newline : 0x0a ∉ toVec value
  nul : 0 ∉ toVec value
  read : fromSlice (commandLine toVec value) = some value

theorem plain_of_not_mem {line : List UInt8} (h : 0x0a ∉ line) : Plain (· == 0x0a) line :=
  fun _ hb ↦ beq_eq_false_iff_ne.2 fun heq ↦ h (heq ▸ hb)

/-- **A line that was sent passes the checks of length, newline and zero bytes.** -/
theorem lineAction_commandLine {value : JsonValue} (h : Sent fromSlice toVec value)
    (connected : Bool) :
    lineAction fromSlice connected (commandLine toVec value) = valueAction connected value := by
  have hlen := h.length_lt
  have hframed : ¬((commandLine toVec value).length > maxCommand ∨
      (commandLine toVec value).getLast? ≠ some 0x0a) := by
    rw [commandLine, List.length_append, List.length_singleton, List.getLast?_append]
    rintro (hlong | hlast)
    · omega
    · exact hlast rfl
  have hnul : 0 ∉ commandLine toVec value := by
    rw [commandLine, List.mem_append, not_or]
    exact ⟨h.nul, by decide⟩
  rw [lineAction, if_neg hframed, h.read, valueAction]
  dsimp only
  cases (value.index "type").asStr with
  | none => rfl
  | some kind =>
    dsimp only
    rw [if_neg hnul]

variable {events : List (ReadEvent UInt8 ε)}

section Round

variable {native : ℕ → Int32} {connected : Bool} {calls : ℕ}

/-- One round of the loop, once it is known what is read. -/
theorem runLoop_of_readUntil {line : List UInt8} {rest : List (ReadEvent UInt8 ε)}
    (h : readUntil (· == 0x0a) (maxCommand + 1) events = (.ok line, rest)) :
    runLoop fromSlice toVec native connected calls events =
      if line = [] then ([.read line], .ok ())
      else
        match lineAction fromSlice connected line with
        | .disconnect => ([.read line], .ok ())
        | .refuse text => ([.read line], .error (.bail text))
        | .call kind =>
          if native calls ≠ 0 then
            ([.read line, .native line (native calls),
                .output msgError (errorPayload toVec (nativeFailed (native calls))) []],
              .error (.bail (nativeFailed (native calls))))
          else if kind = "connect" then
            let later := runLoop fromSlice toVec native true (calls + 1) rest
            (.read line :: .native line (native calls) :: .output msgReady [] [] :: later.1,
              later.2)
          else
            let later := runLoop fromSlice toVec native connected (calls + 1) rest
            (.read line :: .native line (native calls) :: later.1, later.2) := by
  rw [runLoop]
  split
  case h_1 h' => cases h.symm.trans h'
  case h_2 h' =>
    cases h.symm.trans h'
    rfl

/-- The end of the input ends the loop well. -/
theorem runLoop_of_end (hrel : Reliable events) (hbytes : bytes events = []) :
    runLoop fromSlice toVec native connected calls events = ([.read []], .ok ()) := by
  obtain ⟨rest, hread, -, -⟩ := readUntil_eq (· == 0x0a) hrel (maxCommand + 1)
  rw [hbytes] at hread
  rw [runLoop_of_readUntil hread]
  rfl

/-- A piece of a line ends the loop with an error, and nothing is done about it. -/
theorem runLoop_of_piece (hrel : Reliable events) {piece : List UInt8} (hne : piece ≠ [])
    (hplain : 0x0a ∉ piece) (hlen : piece.length ≤ maxCommand) (hbytes : bytes events = piece) :
    runLoop fromSlice toVec native connected calls events =
      ([.read piece], .error (.bail invalidLength)) := by
  obtain ⟨rest, hread, -, -⟩ := readUntil_eq (· == 0x0a) hrel (maxCommand + 1)
  rw [hbytes, upTo_of_plain (plain_of_not_mem hplain),
    List.take_of_length_le (Nat.le_succ_of_le hlen)] at hread
  have hlast : piece.getLast? ≠ some 0x0a := fun h ↦ hplain (List.mem_of_getLast? h)
  rw [runLoop_of_readUntil hread, if_neg hne, lineAction, if_pos (.inr hlast)]

end Round

/-- **The lines of values are served in order**, and the loop goes on behind them unless one of the
values ends it. -/
theorem runLoop_commandLines (native : ℕ → Int32) (connected : Bool) (calls : ℕ)
    (hrel : Reliable events) {values : List JsonValue}
    (hsent : ∀ value ∈ values, Sent fromSlice toVec value) {ys : List UInt8}
    (hbytes : bytes events = commandLines toVec values ++ ys) :
    ∃ (connected' : Bool) (calls' : ℕ) (rest : List (ReadEvent UInt8 ε)), Reliable rest ∧
      bytes rest = ys ∧ runLoop fromSlice toVec native connected calls events =
        orElse (serve toVec native connected calls values)
          (runLoop fromSlice toVec native connected' calls' rest) := by
  induction values generalizing connected calls events with
  | nil => exact ⟨connected, calls, events, hrel, hbytes, rfl⟩
  | cons value values ih =>
    have hvalue := hsent value List.mem_cons_self
    obtain ⟨mid, hread, hmid, hmidbytes⟩ :=
      readUntil_eq (· == 0x0a) hrel (maxCommand + 1)
    have hline : upTo (· == 0x0a) (maxCommand + 1) (bytes events) = commandLine toVec value := by
      rw [hbytes, commandLines_cons, commandLine, List.append_assoc, List.append_assoc]
      exact upTo_append_cons (plain_of_not_mem hvalue.newline) rfl
        (Nat.lt_succ_of_lt hvalue.length_lt) _
    rw [hline] at hread hmidbytes
    rw [hbytes, commandLines_cons, List.append_assoc, List.append_cancel_left_eq] at hmidbytes
    have hvalues : ∀ value ∈ values, Sent fromSlice toVec value :=
      fun v hv ↦ hsent v (List.mem_cons_of_mem _ hv)
    have hne : commandLine toVec value ≠ [] :=
      List.append_ne_nil_of_right_ne_nil _ (List.cons_ne_nil _ _)
    rw [runLoop_of_readUntil hread, if_neg hne, lineAction_commandLine hvalue, serve]
    cases valueAction connected value with
    | disconnect | refuse text =>
      -- the run ends here; the bytes behind are there, but nobody reads them
      obtain ⟨connected', calls', rest, hrest, hrestbytes, -⟩ :=
        ih connected calls hmid hvalues hmidbytes
      exact ⟨connected', calls', rest, hrest, hrestbytes, rfl⟩
    | call kind =>
      dsimp only
      obtain ⟨connected', calls', rest, hrest, hrestbytes, hloop⟩ :=
        ih (if kind = "connect" then true else connected) (calls + 1) hmid hvalues hmidbytes
      refine ⟨connected', calls', rest, hrest, hrestbytes, ?_⟩
      by_cases hresult : native calls ≠ 0
      · rw [if_pos hresult, if_pos hresult]
        rfl
      rw [if_neg hresult, if_neg hresult]
      by_cases hkind : kind = "connect"
      · rw [if_pos hkind] at hloop
        rw [if_pos hkind, if_pos hkind, hloop]
        exact (orElse_append [_, _, _] _ _).symm
      · rw [if_neg hkind] at hloop
        rw [if_neg hkind, if_neg hkind, hloop]
        exact (orElse_append [_, _] _ _).symm

end Reading

/-! ### The stream -/

section Stream

variable {ε : Type} (toVec : JsonValue → List UInt8)

/-- Values served as they should be: their lines are read in order, all of them unless the run ends
on the way, and it ends only at a disconnect, or because a value has no type or is out of order, or
because its native call fails. -/
structure Served (values : List JsonValue)
    (first : List RunEffect × Option (Except (RunError ε) Unit)) : Prop where
  reads : ∃ served rest, values = served ++ rest ∧
    readLines first.1 = served.map (commandLine toVec) ∧ (first.2 = none → rest = [])
  calls : ∀ command result, .native command result ∈ first.1 →
    ∃ value ∈ values, command = commandLine toVec value
  closed : first.2 = some (.ok ()) →
    ∃ value ∈ values, (value.index "type").asStr = some "disconnect"
  refused : ∀ error, first.2 = some (.error error) → error = .bail noType ∨
    error = .bail connectOnce ∨ ∃ result, result ≠ 0 ∧ error = .bail (nativeFailed result)

variable {toVec}

theorem valueAction_spec (connected : Bool) (value : JsonValue) :
    match valueAction connected value with
    | .disconnect => (value.index "type").asStr = some "disconnect"
    | .refuse text => text = noType ∨ text = connectOnce
    | .call _ => True := by
  rw [valueAction]
  cases (value.index "type").asStr with
  | none => exact .inl rfl
  | some kind =>
    dsimp only
    by_cases hdisconnect : kind = "disconnect"
    · rw [if_pos hdisconnect]
      exact congrArg some hdisconnect
    rw [if_neg hdisconnect]
    by_cases horder : connected = true ∧ kind = "connect" ∨ ¬connected = true ∧ kind ≠ "connect"
    · rw [if_pos horder]
      exact .inr rfl
    · rw [if_neg horder]
      trivial

/-- One more value in front, with its call. -/
theorem Served.cons {value : JsonValue} {values : List JsonValue}
    {first : List RunEffect × Option (Except (RunError ε) Unit)} (h : Served toVec values first)
    (result : Int32) (effects : List RunEffect) (hreads : readLines effects = [])
    (hcalls : ∀ command result, .native command result ∉ effects) :
    Served toVec (value :: values)
      (.read (commandLine toVec value) :: .native (commandLine toVec value) result ::
        (effects ++ first.1), first.2) where
  reads := by
    obtain ⟨served, rest, hvalues, hlines, hrest⟩ := h.reads
    refine ⟨value :: served, rest, by rw [hvalues, List.cons_append], ?_, hrest⟩
    rw [List.map_cons, ← hlines, ← List.nil_append (readLines first.1), ← hreads, readLines,
      readLines, readLines, ← List.filterMap_append]
    rfl
  calls command result' hmem := by
    simp only [List.mem_cons, List.mem_append, reduceCtorEq, RunEffect.native.injEq, false_or,
      hcalls] at hmem
    rcases hmem with ⟨rfl, -⟩ | hmem
    · exact ⟨value, List.mem_cons_self, rfl⟩
    · obtain ⟨v, hv, hcommand⟩ := h.calls command result' hmem
      exact ⟨v, List.mem_cons_of_mem _ hv, hcommand⟩
  closed hclosed := by
    obtain ⟨v, hv, htype⟩ := h.closed hclosed
    exact ⟨v, List.mem_cons_of_mem _ hv, htype⟩
  refused := h.refused

theorem served_serve (toVec : JsonValue → List UInt8) (native : ℕ → Int32) (connected : Bool)
    (calls : ℕ) (values : List JsonValue) :
    Served (ε := ε) toVec values (serve toVec native connected calls values) := by
  induction values generalizing connected calls with
  | nil => exact ⟨⟨[], [], rfl, rfl, fun _ ↦ rfl⟩, nofun, nofun, nofun⟩
  | cons value values ih =>
    have hspec := valueAction_spec connected value
    rw [serve]
    cases haction : valueAction connected value with
    | disconnect =>
      rw [haction] at hspec
      exact ⟨⟨[value], values, rfl, rfl, nofun⟩, by simp,
        fun _ ↦ ⟨value, List.mem_cons_self, hspec⟩, nofun⟩
    | refuse text =>
      rw [haction] at hspec
      refine ⟨⟨[value], values, rfl, rfl, nofun⟩, by simp, nofun, fun error h ↦ ?_⟩
      cases h
      rcases hspec with rfl | rfl
      · exact .inl rfl
      · exact .inr (.inl rfl)
    | call kind =>
      dsimp only
      split
      case isTrue hresult =>
        refine ⟨⟨[value], values, rfl, rfl, nofun⟩, by simp, nofun, fun error h ↦ ?_⟩
        cases h
        exact .inr (.inr ⟨native calls, hresult, rfl⟩)
      case isFalse hresult =>
        split
        · exact (ih true (calls + 1)).cons _ [.output msgReady [] []] rfl (by simp)
        · exact (ih connected (calls + 1)).cons _ [] rfl nofun

/-- `run` behind the loop: the native runtime is dropped. -/
def dropped (loop : List RunEffect × Except (RunError ε) Unit) :
    List RunEffect × Except (RunError ε) Unit :=
  (loop.1 ++ [.shutdown], loop.2)

theorem run_eq_dropped (fromSlice : List UInt8 → Option JsonValue) (toVec : JsonValue → List UInt8)
    (native : ℕ → Int32) (events : List (ReadEvent UInt8 ε)) :
    run fromSlice toVec native 1 0 events =
      dropped (runLoop fromSlice toVec native false 0 events) := by
  simp only [run, ne_eq, not_true_eq_false, if_false, dropped]

/-- How the loop goes on behind `before`, of whose bytes and `c` more of the next line nothing is
missing: at a boundary the input has ended, inside a line the line is refused. -/
def cutTail (line : List UInt8) (c : ℕ) : List RunEffect × Except (RunError ε) Unit :=
  if c = 0 then ([.read []], .ok ()) else ([.read (line.take c)], .error (.bail invalidLength))

/-- The loop over a beginning of a line, which is not the whole line. -/
theorem runLoop_cutTail {fromSlice : List UInt8 → Option JsonValue} {native : ℕ → Int32}
    {connected : Bool} {calls : ℕ} {events : List (ReadEvent UInt8 ε)} (hrel : Reliable events)
    {value : JsonValue} (hvalue : Sent fromSlice toVec value) {c : ℕ}
    (hc : c < (commandLine toVec value).length)
    (hbytes : bytes events = (commandLine toVec value).take c) :
    runLoop fromSlice toVec native connected calls events =
      cutTail (commandLine toVec value) c := by
  rw [cutTail]
  split
  case isTrue hzero => exact runLoop_of_end hrel (by rw [hbytes, hzero, List.take_zero])
  case isFalse hzero =>
    rw [commandLine, List.length_append, List.length_singleton] at hc
    -- the newline is the last byte, so it is cut off
    have hpiece : (commandLine toVec value).take c = (toVec value).take c :=
      List.take_append_of_le_length (Nat.le_of_lt_succ hc)
    have hlen := hvalue.length_lt
    refine runLoop_of_piece hrel ?_ ?_ ?_ hbytes
    · rw [← List.length_pos_iff, List.length_take, commandLine, List.length_append,
        List.length_singleton]
      omega
    · rw [hpiece]
      exact fun hmem ↦ hvalue.newline (List.mem_of_mem_take hmem)
    · rw [hpiece, List.length_take]
      omega

/-- A call of a run that is cut is a call for a value in front of the cut. -/
theorem native_mem_of_cut {first : List RunEffect × Option (Except (RunError ε) Unit)}
    {line : List UInt8} {c : ℕ} {command : List UInt8} {result : Int32}
    (h : .native command result ∈ (dropped (orElse first (cutTail line c))).1) :
    .native command result ∈ first.1 := by
  obtain ⟨trace, _ | outcome⟩ := first
  · simp only [dropped, orElse, cutTail, List.mem_append] at h
    split at h <;> simpa using h
  · simpa [dropped] using h

/-- A run that is cut inside a line ends well only if it has ended before. -/
theorem ok_of_cut {first : List RunEffect × Option (Except (RunError ε) Unit)}
    {line : List UInt8} {c : ℕ} (hc : c ≠ 0)
    (h : (dropped (orElse first (cutTail line c))).2 = .ok ()) : first.2 = some (.ok ()) := by
  obtain ⟨trace, _ | outcome⟩ := first
  · rw [dropped, orElse, cutTail, if_neg hc] at h
    cases h
  · exact congrArg some h

/-- **Command framing.** Values are sent, and every one of them is accepted. However the bytes
arrive, the run over them is the run over the values, to the end of the input. If the stream is cut,
it is the run over the values that are wholly there, and then, inside a line, an error, without a
call for the partial line; only a disconnect on the way ends it well. A value that is refused leaves
the input as it was. -/
theorem command_framing {fromSlice : List UInt8 → Option JsonValue} {toVec : JsonValue → List UInt8}
    {values : List JsonValue} (hplain : ∀ value ∈ values, 0x0a ∉ toVec value ∧ 0 ∉ toVec value)
    (hread : ∀ value ∈ values, fromSlice (commandLine toVec value) = some value)
    {wire : List UInt8} (hsend : sendAll toVec values (some []) = (.ok (), some wire))
    (native : ℕ → Int32) :
    (∀ vs, Served (ε := ε) toVec vs (serve toVec native false 0 vs)) ∧
      (∀ events : List (ReadEvent UInt8 ε), Reliable events → bytes events = wire →
        run fromSlice toVec native 1 0 events =
          dropped (orElse (serve toVec native false 0 values) ([.read []], .ok ()))) ∧
      (∀ cut < wire.length, ∃ before value after c, values = before ++ value :: after ∧
        cut = (commandLines toVec before).length + c ∧ c < (commandLine toVec value).length ∧
        ∀ events : List (ReadEvent UInt8 ε), Reliable events → bytes events = wire.take cut →
          run fromSlice toVec native 1 0 events =
            dropped (orElse (serve toVec native false 0 before)
              (cutTail (commandLine toVec value) c)) ∧
          (∀ command result,
            .native command result ∈ (run fromSlice toVec native 1 0 events).1 →
              ∃ earlier ∈ before, command = commandLine toVec earlier) ∧
          (c ≠ 0 → (run fromSlice toVec native 1 0 events).2 = .ok () →
            ∃ earlier ∈ before, (earlier.index "type").asStr = some "disconnect")) ∧
      ∀ (write : WriteResult) (value : JsonValue) (input : Option (List UInt8)),
        (send toVec write value input).1 = .error commandTooLarge ∨
            (send toVec write value input).1 = .error workerClosed →
          (send toVec write value input).2 = input := by
  obtain ⟨hlt, hwire⟩ := sendAll_eq_ok hsend
  rw [List.nil_append, Option.some.injEq] at hwire
  have hsent (vs : List JsonValue) (hvs : ∀ value ∈ vs, value ∈ values) :
      ∀ value ∈ vs, Sent fromSlice toVec value := fun value h ↦
    ⟨hlt value (hvs value h), (hplain value (hvs value h)).1, (hplain value (hvs value h)).2,
      hread value (hvs value h)⟩
  refine ⟨served_serve toVec native false 0, fun events hrel hbytes ↦ ?_, fun cut hcut ↦ ?_,
    fun _ _ _ ↦ send_of_refused⟩
  · obtain ⟨connected, calls, rest, hrest, hrestbytes, hloop⟩ := runLoop_commandLines native
      false 0 hrel (hsent values fun _ ↦ id) ((hbytes.trans hwire).trans (List.append_nil _).symm)
    rw [run_eq_dropped, hloop, runLoop_of_end hrest hrestbytes]
  · rw [hwire] at hcut
    obtain ⟨before, value, after, c, hvalues, hc, hcutlen, htake⟩ := exists_cut_flatMap hcut
    refine ⟨before, value, after, c, hvalues, hcutlen, hc, fun events hrel hbytes ↦ ?_⟩
    have hvalue : Sent fromSlice toVec value :=
      hsent values (fun _ ↦ id) value (by rw [hvalues]; simp)
    have hbefore := hsent before fun v hv ↦ hvalues ▸ List.mem_append_left _ hv
    rw [hwire] at hbytes
    obtain ⟨connected, calls, rest, hrest, hrestbytes, hloop⟩ :=
      runLoop_commandLines native false 0 hrel hbefore (hbytes.trans htake)
    have hserved := served_serve (ε := ε) toVec native false 0 before
    rw [run_eq_dropped, hloop, runLoop_cutTail hrest hvalue hc hrestbytes]
    refine ⟨rfl, fun command result h ↦ hserved.calls command result (native_mem_of_cut h), ?_⟩
    exact fun hzero h ↦ hserved.closed (ok_of_cut hzero h)

end Stream

section Fragments

/-- A command of which only the type matters. -/
def typed (kind : String) : JsonValue :=
  .object [("type", .string kind)]

/-- A reader of JSON for three lines. -/
def readTyped (line : List UInt8) : Option JsonValue :=
  ([typed "connect", typed "resize", typed "disconnect"]).find? fun value ↦
    commandLine compact value == line

/-- A connect and a resize, in two pieces. -/
def connectResize : List (ReadEvent UInt8 Unit) :=
  unread ((commandLines compact [typed "connect", typed "resize"]).take 11)
    (unread ((commandLines compact [typed "connect", typed "resize"]).drop 11) [])

theorem reliable_connectResize : Reliable connectResize :=
  Reliable.unread (Reliable.unread nofun _) _

theorem command_framing_connectResize :
    run readTyped compact (fun _ ↦ 0) 1 0 connectResize =
      ([.read (commandLine compact (typed "connect")),
        .native (commandLine compact (typed "connect")) 0, .output msgReady [] [],
        .read (commandLine compact (typed "resize")),
        .native (commandLine compact (typed "resize")) 0, .read [], .shutdown], .ok ()) := by
  have hread : ∀ value ∈ [typed "connect", typed "resize"],
      readTyped (commandLine compact value) = some value := by
    simp only [List.forall_mem_cons]
    exact ⟨rfl, rfl, nofun⟩
  exact (command_framing (by decide) hread rfl fun _ ↦ 0).2.1 connectResize reliable_connectResize
    rfl

/-- A disconnect, and then five bytes of a resize. -/
def disconnectPiece : List (ReadEvent UInt8 Unit) :=
  unread (commandLines compact [typed "disconnect"] ++
    (commandLine compact (typed "resize")).take 5) []

/-- **The run over a stream that is cut behind a disconnect ends well.** -/
theorem run_disconnectPiece :
    bytes disconnectPiece = (commandLines compact [typed "disconnect", typed "resize"]).take 27 ∧
      ¬(commandLines compact [typed "disconnect", typed "resize"]).length ≤ 27 ∧
      run readTyped compact (fun _ ↦ 0) 1 0 disconnectPiece =
        ([.read (commandLine compact (typed "disconnect")), .shutdown], .ok ()) := by
  have hrel : Reliable disconnectPiece := Reliable.unread nofun _
  have hsent : ∀ value ∈ [typed "disconnect"], Sent readTyped compact value := by
    rw [List.forall_mem_singleton]
    exact ⟨by decide, by decide, by decide, rfl⟩
  have hbytes : bytes disconnectPiece = commandLines compact [typed "disconnect"] ++
      (commandLine compact (typed "resize")).take 5 := by
    rw [disconnectPiece, bytes_unread]
    exact List.append_nil _
  obtain ⟨connected, calls, rest, -, -, hloop⟩ :=
    runLoop_commandLines (fun _ ↦ 0) false 0 hrel hsent hbytes
  refine ⟨by decide, by decide, ?_⟩
  rw [run_eq_dropped, hloop]
  rfl

end Fragments

end RdpMcp
