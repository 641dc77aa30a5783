import RdpMcp.Delivery.EndToEnd

/-!
# Nothing stays down

A key, a code unit or a mouse button that goes down stays down on the remote desktop until it goes
up. Every call but a bare `down` of a key releases what it presses, so **between calls nothing is
held, and during a call only what that call has pressed** (`nothing_held`): also where the worker is
cut off, the connection is lost or the session is closed in the middle of one.
-/

open ByteReader Nesting

namespace RdpMcp

/-! ### What is held -/

/-- What can be held down on the remote desktop. -/
inductive Pressable where
  | key (scancode : UInt8) (extended : Bool)
  | unit (codeUnit : UInt16)
  | button (flag : PointerFlag)
  deriving DecidableEq, Repr

/-- What an event presses or releases, if anything: of a mouse event, the button. -/
def InputEvent.touch : InputEvent → Option (Pressable × Bool)
  | mouse flags _ _ _ =>
    (flags.find? fun flag ↦ flag ∈ [.button1, .button2, .button3]).map fun flag ↦
      (.button flag, decide (.down ∈ flags))
  | keyboard down scancode extended => some (.key scancode extended, down)
  | unicode release codeUnit => some (.unit codeUnit, !release)

/-- The presses and releases of some events. -/
def touches (events : List InputEvent) : List (Pressable × Bool) :=
  events.filterMap InputEvent.touch

/-- A key that is put down and not up again, on purpose. -/
def ToolCall.PutsDown (call : ToolCall) : Prop :=
  ∃ key modifiers, call = .sendKey key modifiers "down"

/-! ### One call -/

theorem touches_flatMap {α : Type} (f : α → List InputEvent) (xs : List α) :
    touches (xs.flatMap f) = xs.flatMap fun x ↦ touches (f x) :=
  List.filterMap_flatMap

theorem touches_append (xs ys : List InputEvent) : touches (xs ++ ys) = touches xs ++ touches ys :=
  List.filterMap_append

theorem touch_button (down : Bool) (n : ℤ) (rotation : UInt8) (x y : UInt16) :
    (InputEvent.mouse ((if down then [.down] else []) ++ [buttonFlag n]) rotation x y).touch =
      some (.button (buttonFlag n), down) := by
  have hflag : buttonFlag n = .button1 ∨ buttonFlag n = .button2 ∨ buttonFlag n = .button3 := by
    rw [buttonFlag]
    split_ifs
    · exact .inr (.inr rfl)
    · exact .inr (.inl rfl)
    · exact .inl rfl
  rcases hflag with h | h | h <;> rw [h] <;> cases down <;> rfl

/-- A button that goes down and up. -/
theorem touches_button (down : Bool) (x y : Int32) (button : UInt8) :
    touches (SentCommand.mouseButton down x y button).inputs =
      [(.button (buttonFlag button.toNat), down)] := by
  rw [SentCommand.inputs, touches, List.filterMap_cons_some (touch_button ..)]
  rfl

theorem held_clickSends (x y : Int32) (button : UInt8) :
    held (touches ((clickSends x y button).flatMap SentCommand.inputs)) = ∅ := by
  rw [clickSends, touches_flatMap, List.flatMap_cons, List.flatMap_singleton, touches_button,
    touches_button]
  exact held_nest [Pressable.button (buttonFlag button.toNat)]

theorem held_unitSends (codeUnit : UInt16) :
    held (touches ((unitSends codeUnit).flatMap SentCommand.inputs)) = ∅ := by
  by_cases h : codeUnit = 0
  · rw [h]
    rfl
  · simp only [unitSends, List.flatMap_cons, List.flatMap_nil, SentCommand.inputs, if_neg h]
    exact held_nest [Pressable.unit codeUnit]

/-- The keys of a chord, without a key `0`. -/
theorem touches_keySends (keys : List (UInt8 × Bool)) (down : Bool) :
    touches ((keySends (keys.map (·, down))).flatMap SentCommand.inputs) =
      ((keys.filter fun key ↦ key.1 ≠ 0).map fun key ↦ Pressable.key key.1 key.2).map
        (·, down) := by
  induction keys with
  | nil => rfl
  | cons key keys ih =>
    rw [List.map_cons, keySends, List.map_cons, List.flatMap_cons, touches_append, ← keySends, ih]
    by_cases h : key.1 = 0
    · simp [SentCommand.inputs, h, touches]
    · simp [SentCommand.inputs, h, touches, InputEvent.touch]

theorem held_nest_keySends (keys : List (UInt8 × Bool)) :
    held (touches ((keySends (nest keys)).flatMap SentCommand.inputs)) = ∅ := by
  rw [nest, keySends, List.map_append, List.flatMap_append, touches_append, ← keySends, ← keySends,
    touches_keySends, touches_keySends, List.filter_reverse, List.map_reverse]
  exact held_nest _

/-- **A call that does not put a key down on purpose leaves nothing held.** -/
theorem held_inputs (debug : Char → String) {call : ToolCall} (h : ¬call.PutsDown) :
    held (touches (call.inputs debug)) = ∅ := by
  rw [ToolCall.inputs]
  cases call with
  | mouseMove x y => rfl
  | mouseClick x y button doubleClick =>
    rw [ToolCall.sends]
    cases mouseButton button with
    | error error => rfl
    | ok n =>
      dsimp only
      generalize (if doubleClick then 2 else 1) = count
      induction count with
      | zero => rfl
      | succ count ih =>
        rw [List.replicate_succ, List.flatten_cons, List.flatMap_append, touches_append,
          held_append (held_clickSends x y _)]
        exact ih
  | mouseDrag fromX fromY toX toY button =>
    rw [ToolCall.sends]
    cases mouseButton button with
    | error error => rfl
    | ok n =>
      have hmoves : touches (((dragPositions fromX fromY toX toY).map fun position ↦
          SentCommand.mouseMove position.1 position.2).flatMap SentCommand.inputs) = [] := by
        rw [List.flatMap_map, touches_flatMap]
        exact List.flatMap_eq_nil_iff.2 fun _ _ ↦ rfl
      dsimp only
      rw [List.cons_append, List.cons_append, List.flatMap_cons, List.flatMap_cons,
        List.flatMap_append, touches_append, touches_append, touches_append, hmoves,
        touches_button, List.flatMap_singleton, touches_button]
      exact held_nest [Pressable.button (buttonFlag (UInt8.ofNat n).toNat)]
  | mouseScroll x y delta vertical =>
    rw [ToolCall.sends, List.flatMap_singleton, SentCommand.inputs]
    split_ifs <;> rfl
  | typeText text delayMs =>
    rw [ToolCall.sends, List.flatMap_assoc, touches_flatMap]
    exact held_flatMap fun codeUnit _ ↦ held_unitSends codeUnit
  | sendKey key modifiers action =>
    rw [ToolCall.sends]
    cases keyStroke debug key with
    | error error => rfl
    | ok stroke =>
      cases modifiers.mapM modifier with
      | error error => rfl
      | ok strokes =>
        dsimp only
        unfold strokeSends
        split
        · exact held_nest_keySends _
        · exact absurd ⟨key, modifiers, rfl⟩ h
        · rw [List.flatMap_singleton, SentCommand.inputs]
          split_ifs <;> rfl
        · rfl
  | resize width height => rfl

/-! ### All calls -/

/-- The beginning of what is put together from pieces: some pieces, and the beginning of one. -/
theorem exists_of_prefix_flatMap {α β : Type} {f : α → List β} {xs : List α} {front : List β}
    (h : front <+: xs.flatMap f) :
    front = [] ∨ ∃ before x after part, xs = before ++ x :: after ∧
      front = before.flatMap f ++ part ∧ part <+: f x := by
  induction xs generalizing front with
  | nil => exact .inl (List.prefix_nil.1 h)
  | cons x xs ih =>
    rw [List.flatMap_cons] at h
    rcases List.prefix_or_prefix_of_prefix h (List.prefix_append _ _) with hhead | ⟨rest, rfl⟩
    · exact .inr ⟨[], x, xs, front, rfl, rfl, hhead⟩
    · rcases ih ((List.prefix_append_right_inj _).1 h) with
        rfl | ⟨before, y, after, part, rfl, rfl, hpart⟩
      · exact .inr ⟨[], x, xs, f x, rfl, List.append_nil _, List.prefix_rfl⟩
      · exact .inr ⟨x :: before, y, after, part, rfl, (List.append_assoc _ _ _).symm, hpart⟩

/-- What a prefix of the events of some calls holds down, the last of them has pressed. -/
theorem held_prefix (debug : Char → String) {calls : List ToolCall}
    (hcalls : ∀ call ∈ calls, ¬call.PutsDown) {events : List InputEvent}
    (h : events <+: calls.flatMap (ToolCall.inputs debug)) :
    held (touches events) = ∅ ∨ ∃ before call after part, calls = before ++ call :: after ∧
      events = before.flatMap (ToolCall.inputs debug) ++ part ∧ part <+: call.inputs debug ∧
      ∀ thing ∈ held (touches events), (thing, true) ∈ touches part := by
  rcases exists_of_prefix_flatMap h with rfl | ⟨before, call, after, part, rfl, rfl, hpart⟩
  · exact .inl rfl
  refine .inr ⟨before, call, after, part, rfl, rfl, hpart, fun thing hthing ↦ ?_⟩
  have hbefore : held (touches (before.flatMap (ToolCall.inputs debug))) = ∅ := by
    rw [touches_flatMap]
    exact held_flatMap fun earlier hearlier ↦
      held_inputs debug (hcalls earlier (List.mem_append_left _ hearlier))
  rw [touches_append, held_append hbefore] at hthing
  exact (mem_foldl_hold hthing).resolve_left (Finset.notMem_empty thing)

section Delivered

variable {ε : Type} {bits : ℕ} {readEvent : List UInt8 → Option JsonValue}
  {fromSlice : List UInt8 → Option JsonValue} {toVec : JsonValue → List UInt8}
  {debug : Char → String} {host : String} {port : UInt16} {username password : String}
  {width height : ℕ} {api : FreeRdp} {states : ℕ → NativeState}
  {strtod : List UInt8 → CDouble × ℕ} {s : PipeState}

/-- **Nothing stays down.** Where no call puts a key down on purpose, what is held down on the
remote desktop is held by one admitted call, the last of which FreeRDP has been handed anything, and
this call has pressed it; and nothing is held when all is quiet, the worker has read its input and
nothing can fail. -/
theorem nothing_held (hstrtod : StrtodExact strtod) (htoVec : Serializes toVec)
    {actions : List PipeAction}
    (hrun : (pipeSystem bits readEvent debug
      (connectCommand host port username password width height)).run {} actions = some s)
    (hshort : (toVec (connectCommand host port username password width height)).length <
      maxCommand)
    (hread : ∀ line ∈ s.lines, fromSlice (commandLine toVec line.value) = some line.value)
    (hlasting : Lasting states) {native : ℕ → Int32} {events : List (ReadEvent UInt8 ε)}
    (hrel : Reliable events) (hbytes : bytes events <+: s.text toVec)
    (hanswers : Answers api states strtod 0
      (nativeCalls (run fromSlice toVec native 1 0 events).1))
    (hcalls : ∀ call ∈ s.admitted, ¬call.PutsDown) :
    let inputs := handed api states strtod 0 (nativeCalls (run fromSlice toVec native 1 0 events).1)
    (held (touches inputs) = ∅ ∨ ∃ before call after part, s.admitted = before ++ call :: after ∧
      inputs = before.flatMap (ToolCall.inputs debug) ++ part ∧ part <+: call.inputs debug ∧
      ∀ thing ∈ held (touches inputs), (thing, true) ∈ touches part) ∧
    (s.Quiet → (∀ call ∈ s.admitted, call.Fine) → (∀ event, api.send event) →
      (∀ config, api.startConnection config = 0) → (∀ i, 0 < i → (states i).Live) →
      bytes events = s.text toVec → held (touches inputs) = ∅) := by
  constructor
  · exact held_prefix debug hcalls
      (handed_run_isPrefix hstrtod htoVec hrun hshort hread hlasting hrel hbytes)
  · intro hquiet hfine hsend hconnects hlive hwhole
    rw [handed_run_eq hstrtod htoVec hrun hshort hread hlasting hrel hquiet hfine hsend hconnects
      hlive hwhole hanswers, touches_flatMap]
    exact held_flatMap fun call hcall ↦ held_inputs debug (hcalls call hcall)

end Delivered

/-! ### A click that is cut off -/

/-- The worker has read the press of the example, and a part of the release. -/
def cutPieces : List (ReadEvent UInt8 Unit) :=
  unread (commandLines compact (clickValues.take 2) ++
    (commandLine compact (SentCommand.mouseButton false 1 2 0).value).take 9) []

theorem reliable_cutPieces : Reliable cutPieces :=
  Reliable.unread nofun _

theorem bytes_cutPieces : bytes cutPieces = commandLines compact (clickValues.take 2) ++
    (commandLine compact (SentCommand.mouseButton false 1 2 0).value).take 9 := by
  rw [cutPieces, bytes_unread]
  exact List.append_nil _

/-- That is the beginning of what is on its input. -/
theorem cutPieces_isPrefix : bytes cutPieces <+: clickedPipe.text compact := by
  have hvalues : clickValues = clickValues.take 2 ++
      (SentCommand.mouseButton false 1 2 0).value :: clickValues.drop 3 :=
    rfl
  have htext : clickedPipe.text compact = commandLines compact (clickValues.take 2) ++
      commandLines compact ((SentCommand.mouseButton false 1 2 0).value :: clickValues.drop 3) :=
    (congrArg (commandLines compact) hvalues).trans List.flatMap_append
  rw [bytes_cutPieces, htext, List.prefix_append_right_inj, commandLines_cons]
  exact (List.take_prefix _ _).trans (List.prefix_append _ _)

theorem nativeCalls_cutPieces :
    nativeCalls (run readClick compact (fun _ ↦ 0) 1 0 cutPieces).1 =
      nativeCalls (serve (ε := Unit) compact (fun _ ↦ 0) false 0 (clickValues.take 2)).1 := by
  have hlength : 9 < (commandLine compact (SentCommand.mouseButton false 1 2 0).value).length := by
    decide +kernel
  exact nativeCalls_run_cut _ (fun v hv ↦ sent_clickValues v (List.mem_of_mem_take hv))
    (sent_clickValues _ (by simp [clickValues, clickAndMove])) reliable_cutPieces hlength
    bytes_cutPieces

/-- FreeRDP has been handed the press. -/
theorem handed_cutPieces :
    handed sendingFreeRdp (fun i ↦ (clickLibrary i).native) strtodInteger 0
      (nativeCalls (run readClick compact (fun _ ↦ 0) 1 0 cutPieces).1) =
        [.mouse [.down, .button1] 0 1 2] := by
  rw [nativeCalls_cutPieces]
  show handedBy _ ++ (handedBy (rdpMcpNativeCommand _ _ _
    (commandLine compact (SentCommand.mouseButton true 1 2 0).value)) ++ []) = _
  rw [handedBy_of_lost lasting_clickLibrary.fresh,
    handedBy_value (live_clickLibrary 1 Nat.one_pos) strtodExact_strtodInteger (fun _ _ _ ↦ rfl)
      (show (SentCommand.mouseButton true 1 2 0).IsInput from trivial)]
  rfl

theorem answers_cutPieces :
    Answers sendingFreeRdp (fun i ↦ (clickLibrary i).native) strtodInteger 0
      (nativeCalls (run readClick compact (fun _ ↦ 0) 1 0 cutPieces).1) := by
  rw [nativeCalls_cutPieces]
  exact ⟨answer_exampleConnect, answers_zero (fun _ ↦ rfl) live_clickLibrary
    strtodExact_strtodInteger (fun _ _ _ ↦ rfl) (clickAndMove.take 1)
    (fun command hcommand ↦ accepted_clickAndMove command (List.mem_of_mem_take hcommand))
    Nat.one_pos⟩

/-- Where the worker's input is cut between press and release, the button is held, and the click has
pressed it; behind the release and the move nothing is. -/
theorem nothing_held_openAndClick :
    held (touches (handed sendingFreeRdp (fun i ↦ (clickLibrary i).native) strtodInteger 0
        (nativeCalls (run readClick compact (fun _ ↦ 0) 1 0 cutPieces).1))) =
        {.button .button1} ∧
      (∃ before call after part, clickedPipe.admitted = before ++ call :: after ∧
        [.mouse [.down, .button1] 0 1 2] =
          before.flatMap (ToolCall.inputs Char.quote) ++ part ∧
        part <+: call.inputs Char.quote ∧ (.button .button1, true) ∈ touches part) ∧
      held (touches (handed sendingFreeRdp (fun i ↦ (clickLibrary i).native) strtodInteger 0
        (nativeCalls (run readClick compact (fun _ ↦ 0) 1 0 clickPieces).1))) = ∅ := by
  have hcalls : ∀ call ∈ clickedPipe.admitted, ¬call.PutsDown := by
    rw [admitted_clickedPipe, List.forall_mem_cons, List.forall_mem_singleton]
    constructor <;> (rintro ⟨key, modifiers, heq⟩; cases heq)
  have hpressed : held (touches [.mouse [.down, .button1] 0 1 2]) = {.button .button1} := by
    decide
  have hcut := (nothing_held strtodExact_strtodInteger (fun _ _ _ ↦ rfl) run_openAndClick
    length_exampleConnect readClick_clickedPipe lasting_clickLibrary reliable_cutPieces
    cutPieces_isPrefix answers_cutPieces hcalls).1
  have hwhole := (nothing_held strtodExact_strtodInteger (fun _ _ _ ↦ rfl) run_openAndClick
    length_exampleConnect readClick_clickedPipe lasting_clickLibrary reliable_clickPieces
    (bytes_clickPieces ▸ List.prefix_rfl) answers_clickPieces hcalls).2 ⟨rfl, rfl, rfl⟩
    fine_clickedPipe (fun _ ↦ rfl) (fun _ ↦ rfl) live_clickLibrary bytes_clickPieces
  rw [handed_cutPieces, hpressed] at hcut ⊢
  refine ⟨rfl, ?_, hwhole⟩
  obtain ⟨before, call, after, part, hadmitted, hinputs, hpart, hthings⟩ :=
    hcut.resolve_left (Finset.singleton_ne_empty _)
  exact ⟨before, call, after, part, hadmitted, hinputs, hpart,
    hthings _ (Finset.mem_singleton_self _)⟩

end RdpMcp
