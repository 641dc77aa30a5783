import RdpMcp.Foundations.Nesting
import RdpMcp.Operations.Returned

/-!
# The trace of a chord

A chord is sent as a nesting (`trace_sendKeyStroke`): the modifiers down in the order in which they
are named, Shift behind them if the key needs it and nobody named it, the key down and up, and the
same modifiers up in the reverse order. So every press has its release, the key goes down and up
while all modifiers are held, and nothing stays behind (`send_key_chord`).

**Presses are matched by position.** A modifier can be named twice, and the key can itself be one of
the modifiers; a keyboard, which does not count, then has the key up after its first release.

What is invalid is refused before anything is sent, though in two places: the names of the key and
the modifiers outside the operation lock, the action inside.
-/

namespace RdpMcp

open Interaction Nesting Operation

/-! ### The keys of a chord -/

/-- What the server tells keys apart by. -/
def KeyStroke.key (stroke : KeyStroke) : UInt8 × Bool :=
  (stroke.scancode, stroke.extended)

/-- The command of a key event. -/
def keyEventCommand (event : (UInt8 × Bool) × Bool) : JsonValue :=
  keyCommand { scancode := event.1.1, extended := event.1.2 } event.2

@[simp]
theorem keyEventCommand_key (stroke : KeyStroke) (down : Bool) :
    keyEventCommand (stroke.key, down) = keyCommand stroke down :=
  rfl

/-- The Shift that a chord adds: exactly if the key needs it and no modifier has its scan code. -/
def impliedShift (stroke : KeyStroke) (modifiers : List KeyStroke) : List KeyStroke :=
  if stroke.shift ∧ ∀ modifier ∈ modifiers, modifier.scancode ≠ 0x2a then
    [{ scancode := 0x2a }] else []

theorem effectiveModifiers_eq (stroke : KeyStroke) (modifiers : List KeyStroke) :
    effectiveModifiers stroke modifiers = modifiers ++ impliedShift stroke modifiers := by
  have hany : (modifiers.any fun item ↦ item.scancode == 0x2a) = false ↔
      ∀ modifier ∈ modifiers, modifier.scancode ≠ 0x2a := by
    simp
  rw [effectiveModifiers, impliedShift]
  by_cases h : stroke.shift ∧ ∀ modifier ∈ modifiers, modifier.scancode ≠ 0x2a
  · rw [if_pos h, if_pos (by simp [h.1, hany.2 h.2])]
  · rw [if_neg h, List.append_nil, if_neg]
    intro hshift
    rw [Bool.and_eq_true, Bool.not_eq_true', hany] at hshift
    exact h hshift

/-! ### The trace -/

/-- An operation that goes on sends what its parts send. -/
theorem trace_bind_ok {p : Operation Unit} {f : Unit → Operation Unit}
    (h : p.run.outcome SessionAct.granted = .ok ()) :
    Program.trace (p >>= f).run = Program.trace p.run ++ Program.trace (f ()).run := by
  rw [Program.trace, transcript_except_ok h, List.filterMap_append]
  rfl

/-- A loop that sends one command a round sends one command for each element. -/
theorem trace_forM {α : Type} {f : α → Operation Unit} (command : α → JsonValue) (items : List α)
    (hf : ∀ item, (f item).run.outcome SessionAct.granted = .ok () ∧
      Program.trace (f item).run = [command item]) :
    (items.forM f).run.outcome SessionAct.granted = .ok () ∧
      Program.trace (items.forM f).run = items.map command := by
  obtain ⟨houtcome, htranscript⟩ := outcome_forM_ok fun item (_ : item ∈ items) ↦ (hf item).1
  refine ⟨houtcome, ?_⟩
  rw [Program.trace, htranscript, List.filterMap_flatMap, List.map_eq_flatMap]
  exact congrArg (items.flatMap ·) (funext fun item ↦ (hf item).2)

/-- **A chord that is pressed is sent as a nesting.** -/
theorem trace_sendKeyStroke (stroke : KeyStroke) (modifiers : List KeyStroke) :
    Program.trace (sendKeyStroke stroke modifiers "press").run =
      (nest ((effectiveModifiers stroke modifiers ++ [stroke]).map KeyStroke.key)).map
        keyEventCommand := by
  obtain ⟨hdown, hdownTrace⟩ := trace_forM
    (f := fun modifier ↦ do keyEvent modifier true; pause 75) (keyCommand · true)
    (effectiveModifiers stroke modifiers) fun modifier ↦ ⟨rfl, rfl⟩
  obtain ⟨hup, hupTrace⟩ := trace_forM
    (f := fun modifier ↦ do pause 75; keyEvent modifier false) (keyCommand · false)
    (effectiveModifiers stroke modifiers).reverse fun modifier ↦ ⟨rfl, rfl⟩
  calc Program.trace (sendKeyStroke stroke modifiers "press").run
      = (effectiveModifiers stroke modifiers).map (keyCommand · true) ++
          ([keyCommand stroke true, keyCommand stroke false] ++
            (effectiveModifiers stroke modifiers).reverse.map (keyCommand · false)) := by
        refine (trace_bind_ok hdown).trans ?_
        rw [hdownTrace]
        refine congrArg (_ ++ ·) ?_
        refine congrArg (keyCommand stroke true :: keyCommand stroke false :: ·) ?_
        refine (trace_bind_ok hup).trans ?_
        rw [hupTrace]
        exact List.append_nil _
    _ = _ := by
        rw [List.map_append, List.map_singleton, nest_concat]
        simp [Function.comp_def]

/-! ### What the trace is like -/

/-- The events of a chord: the effective modifiers down, the key down and up, and the modifiers up
in the reverse order. Every press is matched, the key is down only while the modifiers are, and
nothing is held at the end. -/
structure IsChord (events : List ((UInt8 × Bool) × Bool)) (effective : List (UInt8 × Bool))
    (key : UInt8 × Bool) : Prop where
  shape : events = effective.map (·, true) ++ [(key, true), (key, false)] ++
    effective.reverse.map (·, false)
  matched : Matched events
  /-- Between the two events of the key, all effective modifiers are held, and the key. -/
  within : held (events.take (effective.length + 1)) = insert key effective.toFinset
  /-- A key that is not itself one of the modifiers is held at no other time. -/
  only : key ∉ effective → ∀ i, key ∈ held (events.take i) → i = effective.length + 1
  released : held events = ∅

theorem isChord_nest (effective : List (UInt8 × Bool)) (key : UInt8 × Bool) :
    IsChord (nest (effective ++ [key])) effective key where
  shape := nest_concat effective key
  matched := matched_nest _
  within := by
    rw [held_take_nest (by simp), List.take_of_length_le (by simp), List.toFinset_append,
      List.toFinset_cons, List.toFinset_nil, insert_empty_eq, Finset.union_comm, Finset.insert_eq]
  only := by
    intro hkey i hheld
    by_contra hi
    rcases Nat.lt_or_gt_of_ne hi with hlt | hgt
    · -- before its press, only modifiers are held
      rw [held_take_nest (by simp; omega), List.take_append_of_le_length (by omega),
        List.mem_toFinset] at hheld
      exact hkey (List.mem_of_mem_take hheld)
    · -- its release is the first of all
      refine notMem_held_take_nest (by simp; omega) ?_ hheld
      obtain ⟨n, hn⟩ : ∃ n, i - (effective ++ [key]).length = n + 1 :=
        ⟨i - effective.length - 2, by simp; omega⟩
      rw [hn, List.reverse_concat, List.take_succ_cons]
      exact List.mem_cons_self
  released := held_nest _

/-- **A key press is balanced and nested, or refused.** If the key and every modifier are known, the
trace of `press` is a chord: the modifiers named, with Shift behind them if the key needs it and
none of them has its scan code, around the key. If the key, a modifier or the action is invalid, the
call fails before it asks anything of its session. -/
theorem send_key_chord (debug : Char → String) (key : String) (modifiers : List String)
    (action : String) :
    (∀ stroke strokes, keyStroke debug key = .ok stroke →
      modifiers.map modifier = strokes.map Except.ok →
      ∃ events, (ToolCall.sendKey key modifiers "press").trace debug = events.map keyEventCommand ∧
        IsChord events ((strokes ++ impliedShift stroke strokes).map KeyStroke.key) stroke.key) ∧
    ((∀ stroke, keyStroke debug key ≠ .ok stroke) ∨
        (∃ name ∈ modifiers, ∀ stroke, modifier name ≠ .ok stroke) ∨
        action ∉ ["press", "down", "up"] →
      ∃ error, (ToolCall.sendKey key modifiers action).op debug = .error error ∨
        ∃ op, (ToolCall.sendKey key modifiers action).op debug = .ok op ∧
          op.run = .done (.error error)) := by
  constructor
  · intro stroke strokes hstroke hstrokes
    have hop : (ToolCall.sendKey key modifiers "press").op debug =
        .ok (sendKeyStroke stroke strokes "press") := by
      rw [ToolCall.op, hstroke, Fallible.mapM_eq_ok_iff.2 hstrokes]
      rfl
    refine ⟨nest ((effectiveModifiers stroke strokes ++ [stroke]).map KeyStroke.key), ?_, ?_⟩
    · rw [trace_of_op hop, trace_sendKeyStroke]
    · rw [List.map_append, List.map_singleton, ← effectiveModifiers_eq]
      exact isChord_nest _ _
  · intro hinvalid
    cases hop : (ToolCall.sendKey key modifiers action).op debug with
    | error error => exact ⟨error, .inl rfl⟩
    | ok op =>
      obtain ⟨stroke, hstroke, hop⟩ := Fallible.exists_of_bind_eq_ok hop
      obtain ⟨strokes, hstrokes, hop⟩ := Fallible.exists_of_bind_eq_ok hop
      obtain rfl := Except.ok.inj hop
      rcases hinvalid with hkey | ⟨name, hname, hmodifier⟩ | haction
      · exact absurd hstroke (hkey stroke)
      · have hok : modifier name ∈ strokes.map Except.ok :=
          Fallible.mapM_eq_ok_iff.1 hstrokes ▸ List.mem_map_of_mem hname
        obtain ⟨stroke', -, heq⟩ := List.mem_map.1 hok
        exact absurd heq.symm (hmodifier stroke')
      · exact ⟨_, .inr ⟨_, rfl, sendKeyStroke_of_not_mem stroke strokes haction⟩⟩

/-- Control and a capital letter, and the same with an unknown action. -/
theorem send_key_chord_capital :
    (∃ events, (ToolCall.sendKey "A" ["ctrl"] "press").trace Char.quote =
        events.map keyEventCommand ∧
      IsChord events [(0x1d, false), (0x2a, false)] (0x1e, false)) ∧
    ∃ error, (ToolCall.sendKey "A" ["ctrl"] "hold").op Char.quote = .error error ∨
      ∃ op, (ToolCall.sendKey "A" ["ctrl"] "hold").op Char.quote = .ok op ∧
        op.run = .done (.error error) :=
  ⟨(send_key_chord Char.quote "A" ["ctrl"] "press").1 { scancode := 0x1e, shift := true }
      [{ scancode := 0x1d }] rfl rfl,
    (send_key_chord Char.quote "A" ["ctrl"] "hold").2 (.inr (.inr (by decide)))⟩

end RdpMcp
