import Mathlib.Data.List.Basic
import RdpMcp.Foundations.Fallible

/-!
# Key names

The keyboard tables: which scan code a named key, a modifier or a single character of the US layout
stands for, and whether it needs Shift. The tables are data and the functions are lookups in them,
so what holds of every accepted key is a property of the tables: no accepted key has scan code `0`
(`scancode_ne_zero_of_keyStroke`, `scancode_ne_zero_of_modifier`).
-/

namespace RdpMcp

/-- A key as the session sends it. -/
structure KeyStroke where
  scancode : UInt8
  extended : Bool := false
  shift : Bool := false
  deriving DecidableEq, Repr

/-- `KeyStroke::shifted`. -/
def KeyStroke.shifted (stroke : KeyStroke) : KeyStroke :=
  { stroke with shift := true }

/-- `str::to_ascii_lowercase`. -/
def asciiLowercase (s : String) : String :=
  String.ofList (s.toList.map Char.toLower)

/-! ### The tables -/

/-- The names of the modifiers. -/
def modifierTable : List (String × KeyStroke) :=
  [("ctrl", { scancode := 0x1d }), ("control", { scancode := 0x1d }),
    ("alt", { scancode := 0x38 }), ("shift", { scancode := 0x2a }),
    ("meta", { scancode := 0x5b, extended := true }),
    ("win", { scancode := 0x5b, extended := true }),
    ("windows", { scancode := 0x5b, extended := true })]

/-- The names of the keys, without the modifiers. -/
def namedKeyTable : List (String × KeyStroke) :=
  [("escape", { scancode := 0x01 }), ("esc", { scancode := 0x01 }),
    ("backspace", { scancode := 0x0e }), ("tab", { scancode := 0x0f }),
    ("enter", { scancode := 0x1c }), ("return", { scancode := 0x1c }),
    ("space", { scancode := 0x39 }), ("capslock", { scancode := 0x3a }),
    ("f1", { scancode := 0x3b }), ("f2", { scancode := 0x3c }), ("f3", { scancode := 0x3d }),
    ("f4", { scancode := 0x3e }), ("f5", { scancode := 0x3f }), ("f6", { scancode := 0x40 }),
    ("f7", { scancode := 0x41 }), ("f8", { scancode := 0x42 }), ("f9", { scancode := 0x43 }),
    ("f10", { scancode := 0x44 }), ("f11", { scancode := 0x57 }), ("f12", { scancode := 0x58 }),
    ("numlock", { scancode := 0x45 }), ("scrolllock", { scancode := 0x46 }),
    ("home", { scancode := 0x47, extended := true }),
    ("arrowup", { scancode := 0x48, extended := true }),
    ("up", { scancode := 0x48, extended := true }),
    ("pageup", { scancode := 0x49, extended := true }),
    ("pgup", { scancode := 0x49, extended := true }),
    ("arrowleft", { scancode := 0x4b, extended := true }),
    ("left", { scancode := 0x4b, extended := true }),
    ("arrowright", { scancode := 0x4d, extended := true }),
    ("right", { scancode := 0x4d, extended := true }),
    ("end", { scancode := 0x4f, extended := true }),
    ("arrowdown", { scancode := 0x50, extended := true }),
    ("down", { scancode := 0x50, extended := true }),
    ("pagedown", { scancode := 0x51, extended := true }),
    ("pgdn", { scancode := 0x51, extended := true }),
    ("insert", { scancode := 0x52, extended := true }),
    ("delete", { scancode := 0x53, extended := true }),
    ("del", { scancode := 0x53, extended := true })]

/-- The characters typed with Shift, and the characters their keys bear. -/
def shiftedBaseTable : List (Char × Char) :=
  [('!', '1'), ('@', '2'), ('#', '3'), ('$', '4'), ('%', '5'), ('^', '6'), ('&', '7'), ('*', '8'),
    ('(', '9'), (')', '0'), ('_', '-'), ('+', '='), ('\x7b', '['), ('\x7d', ']'), (':', ';'),
    ('\x22', '\x27'), ('~', '\x60'), ('|', '\x5c'), ('<', ','), ('>', '.'), ('?', '/')]

/-- The characters typed without Shift. -/
def asciiTable : List (Char × UInt8) :=
  [('1', 0x02), ('2', 0x03), ('3', 0x04), ('4', 0x05), ('5', 0x06), ('6', 0x07), ('7', 0x08),
    ('8', 0x09), ('9', 0x0a), ('0', 0x0b), ('-', 0x0c), ('=', 0x0d), ('q', 0x10), ('w', 0x11),
    ('e', 0x12), ('r', 0x13), ('t', 0x14), ('y', 0x15), ('u', 0x16), ('i', 0x17), ('o', 0x18),
    ('p', 0x19), ('[', 0x1a), (']', 0x1b), ('a', 0x1e), ('s', 0x1f), ('d', 0x20), ('f', 0x21),
    ('g', 0x22), ('h', 0x23), ('j', 0x24), ('k', 0x25), ('l', 0x26), (';', 0x27),
    ('\x27', 0x28), ('\x60', 0x29), ('\x5c', 0x2b), ('z', 0x2c), ('x', 0x2d), ('c', 0x2e),
    ('v', 0x2f), ('b', 0x30), ('n', 0x31), ('m', 0x32), (',', 0x33), ('.', 0x34), ('/', 0x35),
    (' ', 0x39), ('\n', 0x1c), ('\r', 0x1c), ('\t', 0x0f)]

/-! ### The lookups -/

/-- `modifier`. -/
def modifier (name : String) : Except String KeyStroke :=
  match modifierTable.lookup (asciiLowercase name) with
  | some stroke => .ok stroke
  | none => .error s!"unsupported modifier: {name}"

/-- `ascii_stroke`. The error quotes the character the way Rust prints one for debugging; the
printer is a parameter. -/
def asciiStroke (debug : Char → String) (character : Char) : Except String KeyStroke :=
  match asciiTable.lookup character with
  | some scancode => .ok { scancode }
  | none => .error ("unsupported US-layout ASCII character: " ++ debug character)

/-- `key_stroke`: a named key, or one character of the US layout. -/
def keyStroke (debug : Char → String) (key : String) : Except String KeyStroke :=
  match (modifierTable ++ namedKeyTable).lookup (asciiLowercase key) with
  | some stroke => .ok stroke
  | none =>
    match key.toList with
    | [] => .error "key must not be empty"
    | character :: others =>
      if !others.isEmpty || 128 ≤ character.toNat then .error s!"unsupported key name: {key}"
      else
        match shiftedBaseTable.lookup character with
        | some base => do return (← asciiStroke debug base).shifted
        | none => do
          let stroke ← asciiStroke debug character.toLower
          return if character.isUpper then stroke.shifted else stroke

/-! ### Scan codes -/

/-- What is looked up in a table is an entry of it. -/
theorem of_lookup_eq_some {α β : Type} [BEq α] {P : β → Prop} {table : List (α × β)} {a : α} {b : β}
    (htable : ∀ entry ∈ table, P entry.2) (h : table.lookup a = some b) : P b := by
  induction table with
  | nil => cases h
  | cons entry table ih =>
    rw [List.lookup_cons] at h
    split at h
    · exact Option.some.inj h ▸ htable entry List.mem_cons_self
    · exact ih (fun e he ↦ htable e (List.mem_cons_of_mem entry he)) h

theorem scancode_ne_zero_of_modifier {name : String} {stroke : KeyStroke}
    (h : modifier name = .ok stroke) : stroke.scancode ≠ 0 := by
  rw [modifier] at h
  split at h
  case h_1 found =>
    cases h
    exact of_lookup_eq_some (P := fun stroke : KeyStroke ↦ stroke.scancode ≠ 0) (by decide) found
  case h_2 => cases h

theorem scancode_ne_zero_of_mapM {names : List String} {strokes : List KeyStroke}
    (h : names.mapM modifier = .ok strokes) : ∀ stroke ∈ strokes, stroke.scancode ≠ 0 :=
  Fallible.forall_mem_of_mapM_eq_ok (fun _ _ ↦ scancode_ne_zero_of_modifier) h

variable {debug : Char → String}

theorem scancode_ne_zero_of_asciiStroke {character : Char} {stroke : KeyStroke}
    (h : asciiStroke debug character = .ok stroke) : stroke.scancode ≠ 0 := by
  rw [asciiStroke] at h
  split at h
  case h_1 found =>
    cases h
    exact of_lookup_eq_some (P := fun scancode : UInt8 ↦ scancode ≠ 0) (by decide) found
  case h_2 => cases h

/-- **No accepted key has scan code `0`.** -/
theorem scancode_ne_zero_of_keyStroke {key : String} {stroke : KeyStroke}
    (h : keyStroke debug key = .ok stroke) : stroke.scancode ≠ 0 := by
  rw [keyStroke] at h
  split at h
  case h_1 found =>
    cases h
    exact of_lookup_eq_some (P := fun stroke : KeyStroke ↦ stroke.scancode ≠ 0) (by decide) found
  case h_2 =>
    split at h
    · cases h
    case h_2 character others _ =>
      split at h
      · cases h
      split at h
      case h_1 base _ =>
        obtain ⟨found, hfound, h⟩ := Fallible.exists_of_bind_eq_ok h
        have hpos := scancode_ne_zero_of_asciiStroke hfound
        cases h
        exact hpos
      case h_2 =>
        obtain ⟨found, hfound, h⟩ := Fallible.exists_of_bind_eq_ok h
        have hpos := scancode_ne_zero_of_asciiStroke hfound
        obtain rfl : (if character.isUpper then found.shifted else found) = stroke :=
          Except.ok.inj h
        split <;> exact hpos

/-! ### Shift -/

/-- What is looked up in a table stands in it under its name. -/
theorem mem_of_lookup_eq_some {α β : Type} [BEq α] [LawfulBEq α] {table : List (α × β)} {a : α}
    {b : β} (h : table.lookup a = some b) : (a, b) ∈ table := by
  obtain ⟨front, back, rfl, -⟩ := List.lookup_eq_some_iff.1 h
  exact List.mem_append_right _ List.mem_cons_self

theorem shift_eq_false_of_asciiStroke {character : Char} {stroke : KeyStroke}
    (h : asciiStroke debug character = .ok stroke) : stroke.shift = false := by
  rw [asciiStroke] at h
  split at h
  · cases h
    rfl
  · cases h

/-- **The keys that need Shift** are the capital letters and the upper signs of the keyboard. -/
theorem shift_iff_of_keyStroke {key : String} {stroke : KeyStroke}
    (h : keyStroke debug key = .ok stroke) :
    stroke.shift ↔ ∃ character, key.toList = [character] ∧
      (character.isUpper ∨ (shiftedBaseTable.lookup character).isSome) := by
  rw [keyStroke] at h
  split at h
  case h_1 found =>
    cases h
    -- a name has two letters at least, and needs no Shift
    have hentry : ∀ entry ∈ modifierTable ++ namedKeyTable,
        entry.2.shift = false ∧ entry.1.toList.length ≠ 1 := by decide
    obtain ⟨hshift, hlength⟩ := hentry _ (mem_of_lookup_eq_some found)
    refine iff_of_false (Bool.not_eq_true _ ▸ hshift) ?_
    rintro ⟨character, hkey, -⟩
    exact hlength (by simp [asciiLowercase, hkey])
  case h_2 =>
    split at h
    · cases h
    case h_2 character others hkey =>
      split at h
      · cases h
      case isFalse hsingle =>
        obtain rfl : others = [] := by
          rw [Bool.or_eq_true, not_or, Bool.not_eq_true, Bool.not_eq_false',
            List.isEmpty_iff] at hsingle
          exact hsingle.1
        rw [hkey]
        split at h
        case h_1 base hbase =>
          obtain ⟨found, -, h⟩ := Fallible.exists_of_bind_eq_ok h
          cases h
          exact iff_of_true rfl ⟨character, rfl, .inr (by rw [hbase]; rfl)⟩
        case h_2 hbase =>
          obtain ⟨found, hfound, h⟩ := Fallible.exists_of_bind_eq_ok h
          obtain rfl : (if character.isUpper then found.shifted else found) = stroke :=
            Except.ok.inj h
          have hshift := shift_eq_false_of_asciiStroke hfound
          constructor
          · intro hshifted
            refine ⟨character, rfl, .inl ?_⟩
            by_contra hupper
            rw [if_neg hupper, hshift] at hshifted
            cases hshifted
          · rintro ⟨character, ⟨⟩, hupper | hsome⟩
            · rw [if_pos hupper]
              rfl
            · rw [hbase] at hsome
              cases hsome

end RdpMcp
