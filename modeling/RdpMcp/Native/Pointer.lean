import RdpMcp.Native.Accepted
import RdpMcp.Operations.Drag

/-!
# The pointer on the wire

A pointer position crosses the worker pipe as an `i32` and is cast to a `UINT16` for the server,
**modulo 65536 and with nobody checking**. The position one expects is the nearest that the field
can hold. `pointer_delivered_iff` is the exact condition: the coordinate is in range, or it is out
of range and lands by chance on the end of the range it lies beyond.

The wheel has a sign of its own. The low nine bits of the flags are a number in two's complement,
and `input_mouse_scroll` puts the absolute value there and sets the ninth bit for a negative one.
The two readings agree on no negative turn (`wheel_turns_iff`): a notch down arrives as 136 units,
one unit down as 255.
-/

namespace RdpMcp

/-! ### Positions -/

/-- The nearest position that fits a 16-bit field. -/
def nearestUint16 (coordinate : Int32) : UInt16 :=
  UInt16.ofNat (max 0 (min coordinate.toInt 65535)).toNat

/-- A coordinate that the cast keeps: one in range, or one out of range that is congruent to the end
of the range it lies beyond. -/
def KeptByCast (coordinate : Int32) : Prop :=
  (0 ≤ coordinate.toInt ∧ coordinate.toInt ≤ 65535) ∨
    (coordinate.toInt < 0 ∧ coordinate.toInt % 65536 = 0) ∨
    (65535 < coordinate.toInt ∧ coordinate.toInt % 65536 = 65535)

/-- **The cast gives the nearest position exactly to the coordinates it keeps.** -/
theorem castUint16_eq_nearest_iff (coordinate : Int32) :
    castUint16 coordinate.toInt = nearestUint16 coordinate ↔ KeptByCast coordinate := by
  rw [castUint16, nearestUint16, ← UInt16.toNat_inj,
    UInt16.toNat_ofNat_of_lt' (by show _ < 65536; omega),
    UInt16.toNat_ofNat_of_lt' (by show _ < 65536; omega), KeptByCast]
  omega

/-- The commands of a pointer call that go to a place the call names, each with its place. The
positions in the middle of a drag are not among them. -/
def ToolCall.places : ToolCall → List (JsonValue × Int32 × Int32)
  | .mouseMove x y => [(moveCommand x y, x, y)]
  | .mouseClick x y button _ =>
    match mouseButton button with
    | .ok n => [(buttonCommand "mouse_button_down" x y n, x, y),
        (buttonCommand "mouse_button_up" x y n, x, y)]
    | .error _ => []
  | .mouseDrag fromX fromY toX toY button =>
    match mouseButton button with
    | .ok n => [(moveCommand fromX fromY, fromX, fromY),
        (buttonCommand "mouse_button_down" fromX fromY n, fromX, fromY),
        (buttonCommand "mouse_button_up" toX toY n, toX, toY)]
    | .error _ => []
  | .mouseScroll x y delta vertical => [(scrollCommand x y delta vertical, x, y)]
  | _ => []

/-- **They are commands of the call**, and sent by every call that succeeds. -/
theorem mem_trace_of_mem_places {debug : Char → String} {call : ToolCall}
    {place : JsonValue × Int32 × Int32} (h : place ∈ call.places) : place.1 ∈ call.trace debug := by
  cases call with
  | mouseMove x y =>
    obtain rfl := List.mem_singleton.1 h
    exact List.mem_singleton_self _
  | mouseClick x y button doubleClick =>
    simp only [ToolCall.places, ToolCall.trace, ToolCall.op] at h ⊢
    cases hbutton : mouseButton button with
    | error e =>
      rw [hbutton] at h
      cases h
    | ok n =>
      rw [hbutton] at h
      rcases List.mem_pair.1 h with rfl | rfl
      · cases doubleClick <;> exact List.mem_cons_self
      · cases doubleClick <;> exact List.mem_cons_of_mem _ List.mem_cons_self
  | mouseDrag fromX fromY toX toY button =>
    simp only [ToolCall.places, ToolCall.trace, ToolCall.op] at h ⊢
    cases hbutton : mouseButton button with
    | error e =>
      rw [hbutton] at h
      cases h
    | ok n =>
      rw [hbutton] at h
      show place.1 ∈ Program.trace (mouseDrag fromX fromY toX toY n).run
      rw [trace_mouseDrag]
      simp only [List.mem_cons, List.not_mem_nil, or_false] at h
      rcases h with rfl | rfl | rfl <;> simp
  | mouseScroll x y delta vertical =>
    obtain rfl := List.mem_singleton.1 h
    exact List.mem_singleton_self _
  | typeText | sendKey | resize => cases h

/-- A command hands the server exactly one mouse event, at the position nearest to a place. -/
def Delivers (api : FreeRdp) (state : NativeState) (strtod : List UInt8 → CDouble × ℕ)
    (toVec : JsonValue → List UInt8) (command : JsonValue) (x y : Int32) : Prop :=
  ∃ flags rotation, rdpMcpNativeCommand api state strtod (toVec command ++ [0x0a]) =
    some (0, [.input (.mouse flags rotation (nearestUint16 x) (nearestUint16 y))])

/-- A turn of the wheel, from the absolute value of its delta. -/
theorem inputMouseScroll_eq (x y delta : ℤ) (vertical : Bool) :
    inputMouseScroll x y delta vertical =
      (if delta < 0 then int32 (-delta) else some delta).map fun absDelta ↦
        .mouse ((if vertical then .wheel else .hwheel) ::
            if delta < 0 then [.wheelNegative] else [])
          (UInt8.ofNat (min absDelta 0x78).toNat) (castUint16 x) (castUint16 y) := by
  rw [inputMouseScroll, Option.map_eq_bind]
  split <;> rfl

section Delivery

variable {api : FreeRdp} {state : NativeState} {strtod : List UInt8 → CDouble × ℕ}
  {toVec : JsonValue → List UInt8}

/-- A command that casts the coordinates of a place delivers it if the cast keeps them. -/
theorem delivers_iff_of_cast {command : JsonValue} {x y : Int32} {flags : List PointerFlag}
    {rotation : UInt8}
    (h : rdpMcpNativeCommand api state strtod (toVec command ++ [0x0a]) =
      some (0, [.input (.mouse flags rotation (castUint16 x.toInt) (castUint16 y.toInt))])) :
    Delivers api state strtod toVec command x y ↔ KeptByCast x ∧ KeptByCast y := by
  rw [Delivers, h, ← castUint16_eq_nearest_iff x, ← castUint16_eq_nearest_iff y]
  constructor
  · rintro ⟨flags', rotation', heq⟩
    simp only [Option.some.injEq, Prod.mk.injEq, List.cons.injEq, NativeEffect.input.injEq,
      InputEvent.mouse.injEq] at heq
    exact heq.2.1.2.2
  · rintro ⟨hx, hy⟩
    exact ⟨flags, rotation, by rw [hx, hy]⟩

variable (hlive : state.Live) (hstrtod : StrtodExact strtod) (htoVec : Serializes toVec)
include hlive hstrtod htoVec

theorem delivers_moveCommand_iff (x y : Int32) :
    Delivers api state strtod toVec (moveCommand x y) x y ↔ KeptByCast x ∧ KeptByCast y :=
  delivers_iff_of_cast (run_moveCommand hlive hstrtod htoVec x y)

theorem delivers_buttonCommand_iff (x y : Int32) {button : ℕ} (hbutton : button ≤ 2) :
    (Delivers api state strtod toVec (buttonCommand "mouse_button_down" x y button) x y ↔
      KeptByCast x ∧ KeptByCast y) ∧
    (Delivers api state strtod toVec (buttonCommand "mouse_button_up" x y button) x y ↔
      KeptByCast x ∧ KeptByCast y) := by
  obtain ⟨hdown, hup⟩ := @run_buttonCommand api _ _ _ hlive hstrtod htoVec x y _ hbutton
  exact ⟨delivers_iff_of_cast hdown, delivers_iff_of_cast hup⟩

theorem delivers_scrollCommand_iff (x y delta : Int32) (vertical : Bool) :
    Delivers api state strtod toVec (scrollCommand x y delta vertical) x y ↔
      (KeptByCast x ∧ KeptByCast y) ∧ delta ≠ Int32.minValue := by
  have hrun := @run_scrollCommand api _ _ _ hlive hstrtod htoVec x y delta vertical
  rw [← inputMouseScroll_isSome x.toInt y.toInt delta vertical]
  cases hscroll : inputMouseScroll x.toInt y.toInt delta.toInt vertical with
  | none =>
    rw [hscroll, Option.map_none] at hrun
    refine iff_of_false ?_ (by simp)
    rintro ⟨flags, rotation, heq⟩
    rw [hrun] at heq
    exact absurd heq (Option.some_ne_none _).symm
  | some event =>
    rw [hscroll, Option.map_some] at hrun
    obtain ⟨flags, rotation, rfl⟩ : ∃ flags rotation,
        event = .mouse flags rotation (castUint16 x.toInt) (castUint16 y.toInt) := by
      rw [inputMouseScroll_eq] at hscroll
      obtain ⟨absDelta, -, heq⟩ := Option.map_eq_some_iff.1 hscroll
      exact ⟨_, _, heq.symm⟩
    simpa using delivers_iff_of_cast hrun

end Delivery

/-- **Pointer positions are delivered exactly if the cast keeps them.** Of an input call, every
command that goes to a place the call names is one that the call sends, and it hands the server the
nearest position to the place, if and only if every coordinate of these places is one that the cast
keeps and the call is not a scroll by the least `int`. -/
theorem pointer_delivered_iff {api : FreeRdp} {state : NativeState} (hlive : state.Live)
    {strtod : List UInt8 → CDouble × ℕ} (hstrtod : StrtodExact strtod)
    {toVec : JsonValue → List UInt8} (htoVec : Serializes toVec) (debug : Char → String)
    (call : ToolCall) :
    (∀ place ∈ call.places, place.1 ∈ call.trace debug ∧
        Delivers api state strtod toVec place.1 place.2.1 place.2.2) ↔
      (∀ place ∈ call.places, KeptByCast place.2.1 ∧ KeptByCast place.2.2) ∧
        ∀ x y vertical, call ≠ .mouseScroll x y Int32.minValue vertical := by
  -- of any but a scroll, each command delivers its place if its coordinates are kept
  have hplaces (hscroll : ∀ x y delta vertical, call ≠ .mouseScroll x y delta vertical)
      (h : ∀ place ∈ call.places, Delivers api state strtod toVec place.1 place.2.1 place.2.2 ↔
        KeptByCast place.2.1 ∧ KeptByCast place.2.2) :
      (∀ place ∈ call.places, place.1 ∈ call.trace debug ∧
          Delivers api state strtod toVec place.1 place.2.1 place.2.2) ↔
        (∀ place ∈ call.places, KeptByCast place.2.1 ∧ KeptByCast place.2.2) ∧
          ∀ x y vertical, call ≠ .mouseScroll x y Int32.minValue vertical :=
    ⟨fun hall ↦ ⟨fun place hmem ↦ (h place hmem).1 (hall place hmem).2,
      fun x y vertical ↦ hscroll x y _ vertical⟩,
      fun hall place hmem ↦ ⟨mem_trace_of_mem_places hmem, (h place hmem).2 (hall.1 place hmem)⟩⟩
  have hbuttons (x y : Int32) {button : String} {n : ℕ} (hbutton : mouseButton button = .ok n) :=
    @delivers_buttonCommand_iff api _ _ _ hlive hstrtod htoVec x y _ (mouseButton_le_two hbutton)
  cases call with
  | mouseMove x y =>
    refine hplaces nofun fun place hmem ↦ ?_
    obtain rfl := List.mem_singleton.1 hmem
    exact delivers_moveCommand_iff hlive hstrtod htoVec x y
  | mouseClick x y button doubleClick =>
    refine hplaces nofun fun place hmem ↦ ?_
    rw [ToolCall.places] at hmem
    split at hmem
    case h_1 n hbutton =>
      rcases List.mem_pair.1 hmem with rfl | rfl
      · exact (hbuttons x y hbutton).1
      · exact (hbuttons x y hbutton).2
    case h_2 => cases hmem
  | mouseDrag fromX fromY toX toY button =>
    refine hplaces nofun fun place hmem ↦ ?_
    rw [ToolCall.places] at hmem
    split at hmem
    case h_1 n hbutton =>
      simp only [List.mem_cons, List.not_mem_nil, or_false] at hmem
      rcases hmem with rfl | rfl | rfl
      · exact delivers_moveCommand_iff hlive hstrtod htoVec fromX fromY
      · exact (hbuttons fromX fromY hbutton).1
      · exact (hbuttons toX toY hbutton).2
    case h_2 => cases hmem
  | mouseScroll x y delta vertical =>
    have hscroll : (∀ x' y' vertical', ToolCall.mouseScroll x y delta vertical ≠
        .mouseScroll x' y' Int32.minValue vertical') ↔ delta ≠ Int32.minValue := by
      constructor
      · rintro h rfl
        exact h x y vertical rfl
      · rintro h x' y' vertical' ⟨⟩
        exact h rfl
    have hdelivers : Delivers api state strtod toVec (scrollCommand x y delta vertical) x y ↔ _ :=
      delivers_scrollCommand_iff hlive hstrtod htoVec x y delta vertical
    rw [hscroll, ToolCall.places, List.forall_mem_singleton, List.forall_mem_singleton, hdelivers]
    exact ⟨fun h ↦ h.2, fun h ↦ ⟨List.mem_singleton_self _, h⟩⟩
  | typeText | sendKey | resize => exact hplaces nofun nofun

/-- A move within the desktop is delivered. -/
theorem pointer_delivered_iff_move :
    moveCommand 100 200 ∈ (ToolCall.mouseMove 100 200).trace Char.quote ∧
      Delivers sendingFreeRdp liveState strtodInteger compact (moveCommand 100 200) 100 200 :=
  (pointer_delivered_iff live_liveState strtodExact_strtodInteger (fun _ _ _ ↦ rfl) Char.quote
    (.mouseMove 100 200)).2 ⟨by simp [ToolCall.places, KeptByCast], nofun⟩
    (moveCommand 100 200, 100, 200) (List.mem_singleton_self _)

/-- **A move to `(65636, 50)` arrives at `(100, 50)`**: the native layer takes the command, and the
server is handed an unrelated position. -/
theorem move_wraps_around :
    moveCommand 65636 50 ∈ (ToolCall.mouseMove 65636 50).trace Char.quote ∧
      rdpMcpNativeCommand sendingFreeRdp liveState strtodInteger
        (compact (moveCommand 65636 50) ++ [0x0a]) = some (0, [.input (.mouse [.move] 0 100 50)]) ∧
      ¬ Delivers sendingFreeRdp liveState strtodInteger compact (moveCommand 65636 50)
        65636 50 := by
  have hrun : rdpMcpNativeCommand sendingFreeRdp liveState strtodInteger
      (compact (moveCommand 65636 50) ++ [0x0a]) = some (0, [.input (.mouse [.move] 0 100 50)]) :=
    (rdpMcpNativeCommand_of_parsed live_liveState (parse_moveCommand strtodExact_strtodInteger
      (fun _ _ _ ↦ rfl) 65636 50)).trans rfl
  have hkept : ¬ KeptByCast 65636 := by
    rw [KeptByCast]
    decide
  have hdelivers := @delivers_moveCommand_iff sendingFreeRdp _ _ compact live_liveState
    strtodExact_strtodInteger (fun _ _ _ ↦ rfl) 65636 50
  exact ⟨List.mem_singleton_self _, hrun, fun h ↦ hkept (hdelivers.1 h).1⟩

/-! ### The wheel -/

/-- The bits of a pointer flag. -/
def PointerFlag.value : PointerFlag → UInt16
  | move => 0x0800
  | down => 0x8000
  | button1 => 0x1000
  | button2 => 0x2000
  | button3 => 0x4000
  | wheel => 0x0200
  | hwheel => 0x0400
  | wheelNegative => 0x0100

/-- The flags of a mouse event, as one word. -/
def flagsWord (flags : List PointerFlag) (rotation : UInt8) : UInt16 :=
  flags.foldl (fun word flag ↦ word ||| flag.value) rotation.toUInt16

/-- The rotation as the protocol has it: the low nine bits, in two's complement. -/
def wheelRotation (word : UInt16) : ℤ :=
  let field : ℤ := (word &&& 0x01ff).toNat
  if field < 0x100 then field else field - 0x200

/-- What is left of a delta, at a notch each way. -/
def clampNotch (delta : ℤ) : ℤ :=
  max (-120) (min delta 120)

/-- A turn of the wheel is defined, is about its own axis alone and arrives as its delta, up to a
notch. -/
def Turns (x y : ℤ) (delta : Int32) (vertical : Bool) : Prop :=
  ∃ flags rotation px py,
    inputMouseScroll x y delta.toInt vertical = some (.mouse flags rotation px py) ∧
      flagsWord flags rotation &&& 0x0600 = (if vertical then 0x0200 else 0x0400) ∧
      wheelRotation (flagsWord flags rotation) = clampNotch delta.toInt

/-- Up, the field is the number of units. -/
theorem wheelRotation_up : ∀ units ≤ 120, ∀ vertical : Bool,
    let word := flagsWord [if vertical then .wheel else .hwheel] (UInt8.ofNat units)
    word &&& 0x0600 = (if vertical then 0x0200 else 0x0400) ∧ wheelRotation word = units := by
  decide

/-- Down, the field is 256 units too low, with the sign turned. -/
theorem wheelRotation_down : ∀ units ≤ 120, ∀ vertical : Bool,
    wheelRotation (flagsWord [if vertical then .wheel else .hwheel, .wheelNegative]
      (UInt8.ofNat units)) = (units : ℤ) - 256 := by
  decide

/-- **Exactly the turns up arrive as they are sent.** -/
theorem wheel_turns_iff (x y : ℤ) (delta : Int32) (vertical : Bool) :
    Turns x y delta vertical ↔ 0 ≤ delta.toInt := by
  constructor
  · rintro ⟨flags, rotation, px, py, hscroll, -, hrotation⟩
    by_contra hpos
    have hneg : delta.toInt < 0 := Int.not_le.1 hpos
    rw [inputMouseScroll_eq, if_pos hneg, if_pos hneg] at hscroll
    obtain ⟨absDelta, habs, heq⟩ := Option.map_eq_some_iff.1 hscroll
    obtain rfl := eq_of_int32_eq_some habs
    obtain ⟨rfl, rfl, -, -⟩ := InputEvent.mouse.inj heq
    have hdown := wheelRotation_down (min (-delta.toInt) 0x78).toNat (by omega) vertical
    rw [hdown, clampNotch] at hrotation
    omega
  · intro hpos
    obtain ⟨haxis, hup⟩ := wheelRotation_up (min delta.toInt 0x78).toNat (by omega) vertical
    have hneg : ¬ delta.toInt < 0 := Int.not_lt.2 hpos
    refine ⟨_, _, castUint16 x, castUint16 y, ?_, haxis, hup.trans ?_⟩
    · rw [inputMouseScroll_eq, if_neg hneg, if_neg hneg]
      rfl
    · rw [clampNotch]
      omega

/-- **A notch down arrives as 136 units, and one unit down as 255.** The least delta has no absolute
value. -/
theorem notch_down_arrives :
    inputMouseScroll 0 0 (-120 : Int32).toInt true =
        some (.mouse [.wheel, .wheelNegative] 120 0 0) ∧
      wheelRotation (flagsWord [.wheel, .wheelNegative] 120) = -136 ∧
      wheelRotation (flagsWord [.wheel, .wheelNegative] 1) = -255 ∧
      inputMouseScroll 0 0 Int32.minValue.toInt true = none ∧
      ¬ Turns 0 0 (-120) true := by
  refine ⟨by decide, by decide, by decide, by decide, ?_⟩
  rintro ⟨flags, rotation, px, py, hscroll, -, hrotation⟩
  obtain ⟨rfl, rfl, -, -⟩ := InputEvent.mouse.inj (Option.some.inj hscroll)
  exact absurd hrotation (by decide)

end RdpMcp
