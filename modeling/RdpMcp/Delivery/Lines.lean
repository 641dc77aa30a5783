import RdpMcp.Delivery.Sends
import RdpMcp.Worker.Framing

/-!
# The lines of commands

Every command is one line that the worker accepts (`sent_value`): its text has no byte below the
blank, it is short, and the worker's reader of JSON reads it back. A connect command has strings of
any length in it, so of that one the sender's limit is a hypothesis.
-/

namespace RdpMcp

/-! ### Bytes -/

theorem blank_le_of_mem_stringText {s : String} {c : UInt8} (h : c ∈ stringText s) :
    0x20 ≤ c := by
  rw [stringText, List.cons_append, List.mem_cons, List.mem_append, List.mem_flatMap] at h
  rcases h with rfl | ⟨b, -, hb⟩ | h
  · decide
  · exact blank_le_of_mem_escapeByte hb
  · obtain rfl := List.mem_singleton.1 h
    decide

/-- Items that are plain are plain together. -/
theorem blank_le_of_mem_compactItems {items : List JsonValue}
    (h : ∀ item ∈ items, ∀ c ∈ compact item, 0x20 ≤ c) : ∀ c ∈ compactItems items, 0x20 ≤ c := by
  induction items with
  | nil => exact fun c hc ↦ absurd hc List.not_mem_nil
  | cons item items ih =>
    obtain ⟨hitem, hitems⟩ := List.forall_mem_cons.1 h
    intro c hc
    cases items with
    | nil => exact hitem c hc
    | cons next others =>
      rw [compactItems_cons_cons, List.mem_append, List.mem_cons] at hc
      rcases hc with hc | rfl | hc
      · exact hitem c hc
      · decide
      · exact ih hitems c hc

theorem blank_le_of_mem_compactFields {fields : List (String × JsonValue)}
    (h : ∀ field ∈ fields, ∀ c ∈ compact field.2, 0x20 ≤ c) :
    ∀ c ∈ compactFields fields, 0x20 ≤ c := by
  have hfield {field : String × JsonValue} (h : ∀ c ∈ compact field.2, 0x20 ≤ c) :
      ∀ c ∈ compactField field, 0x20 ≤ c := by
    intro c hc
    rw [compactField, List.mem_append, List.mem_cons] at hc
    rcases hc with hc | rfl | hc
    · exact blank_le_of_mem_stringText hc
    · decide
    · exact h c hc
  induction fields with
  | nil => exact fun c hc ↦ absurd hc List.not_mem_nil
  | cons field fields ih =>
    obtain ⟨hhead, hfields⟩ := List.forall_mem_cons.1 h
    intro c hc
    cases fields with
    | nil => exact hfield hhead c hc
    | cons next others =>
      rw [compactFields_cons_cons, List.mem_append, List.mem_cons] at hc
      rcases hc with hc | rfl | hc
      · exact hfield hhead c hc
      · decide
      · exact ih hfields c hc

/-- **JSON text has no control characters in it.** -/
theorem blank_le_of_mem_compact {n : ℕ} {value : JsonValue} (h : value.Exact n) :
    ∀ c ∈ compact value, 0x20 ≤ c := by
  induction h with
  | null n => exact fun c hc ↦ blank_le_of_all (by decide) hc
  | bool n b => cases b <;> exact fun c hc ↦ blank_le_of_all (by decide) hc
  | number n hx =>
    obtain ⟨i, hi, -⟩ := hx
    intro c hc
    rw [compact, numberText, hi] at hc
    obtain rfl | ⟨hlow, -⟩ : c = 0x2d ∨ 0x30 ≤ c ∧ c ≤ 0x39 := by
      simp only [integerText, Option.getD_some] at hc
      split at hc
      · exact (List.mem_cons.1 hc).imp_right decimal_digits
      · exact .inr (decimal_digits hc)
    · decide
    · exact UInt8.le_trans (by decide) hlow
  | string n s => exact fun c hc ↦ blank_le_of_mem_stringText hc
  | array h ih =>
    intro c hc
    rw [compact, List.cons_append, List.mem_cons, List.mem_append] at hc
    rcases hc with rfl | hc | hc
    · decide
    · exact blank_le_of_mem_compactItems ih c hc
    · obtain rfl := List.mem_singleton.1 hc
      decide
  | object h ih =>
    intro c hc
    rw [compact, List.cons_append, List.mem_cons, List.mem_append] at hc
    rcases hc with rfl | hc | hc
    · decide
    · exact blank_le_of_mem_compactFields ih c hc
    · obtain rfl := List.mem_singleton.1 hc
      decide

/-! ### Records -/

theorem mem_insertField {fields : List (String × JsonValue)} {entry field : String × JsonValue}
    (h : field ∈ JsonValue.insertField fields entry) : field = entry ∨ field ∈ fields := by
  induction fields with
  | nil => exact .inl (List.mem_singleton.1 h)
  | cons head rest ih =>
    rw [JsonValue.insertField] at h
    split_ifs at h
    · exact List.mem_cons.1 h
    · exact (List.mem_cons.1 h).imp_right (List.mem_cons_of_mem _)
    · rcases List.mem_cons.1 h with rfl | h
      · exact .inr List.mem_cons_self
      · exact (ih h).imp_right (List.mem_cons_of_mem _)

theorem length_insertField_le (fields : List (String × JsonValue)) (entry : String × JsonValue) :
    (JsonValue.insertField fields entry).length ≤ fields.length + 1 := by
  induction fields with
  | nil => exact le_rfl
  | cons head rest ih =>
    rw [JsonValue.insertField]
    split_ifs
    · exact le_rfl
    · exact Nat.le_succ _
    · exact Nat.succ_le_succ ih

/-- A record is an object of some of the fields it is made of. -/
theorem exists_record (fields : List (String × JsonValue)) :
    ∃ sorted, JsonValue.record fields = .object sorted ∧ sorted.length ≤ fields.length ∧
      ∀ field ∈ sorted, field ∈ fields := by
  suffices h : ∀ start, (fields.foldl JsonValue.insertField start).length ≤
      fields.length + start.length ∧
      ∀ field ∈ fields.foldl JsonValue.insertField start, field ∈ fields ∨ field ∈ start by
    exact ⟨_, rfl, (h []).1, fun field hfield ↦ ((h []).2 field hfield).resolve_right nofun⟩
  induction fields with
  | nil => exact fun start ↦ ⟨by simp, fun field h ↦ .inr h⟩
  | cons entry fields ih =>
    intro start
    obtain ⟨hlength, hmem⟩ := ih (JsonValue.insertField start entry)
    have hinsert := length_insertField_le start entry
    refine ⟨?_, fun field hfield ↦ ?_⟩
    · rw [List.foldl_cons, List.length_cons]
      omega
    · rcases hmem field hfield with h | h
      · exact .inl (List.mem_cons_of_mem _ h)
      · rcases mem_insertField h with rfl | h
        · exact .inl List.mem_cons_self
        · exact .inr h

theorem lookup_cons_eq (field : String × JsonValue) (fields : List (String × JsonValue))
    (key : String) :
    (field :: fields).lookup key = if key = field.1 then some field.2 else fields.lookup key := by
  rw [List.lookup_cons]
  by_cases h : key = field.1
  · rw [if_pos h, beq_iff_eq.2 h]
  · rw [if_neg h, beq_eq_false_iff_ne.2 h]

theorem lookup_insertField (fields : List (String × JsonValue)) (entry : String × JsonValue)
    (key : String) :
    (JsonValue.insertField fields entry).lookup key =
      if key = entry.1 then some entry.2 else fields.lookup key := by
  induction fields with
  | nil => exact lookup_cons_eq entry [] key
  | cons head rest ih =>
    rw [JsonValue.insertField]
    by_cases hlt : entry.1 < head.1
    · rw [if_pos hlt]
      exact lookup_cons_eq entry (head :: rest) key
    rw [if_neg hlt, lookup_cons_eq head]
    by_cases heq : entry.1 = head.1
    · rw [if_pos heq, lookup_cons_eq, heq]
      by_cases hkey : key = head.1
      · rw [if_pos hkey, if_pos hkey]
      · rw [if_neg hkey, if_neg hkey, if_neg hkey]
    · rw [if_neg heq, lookup_cons_eq, ih]
      by_cases hkey : key = head.1
      · rw [if_pos hkey, if_pos hkey, if_neg (fun h ↦ heq (h.symm.trans hkey))]
      · rw [if_neg hkey, if_neg hkey]

/-- The last field of a name is the one that a record has. -/
theorem index_record (fields : List (String × JsonValue)) (key : String) :
    (JsonValue.record fields).index key = (fields.reverse.lookup key).getD .null := by
  suffices h : ∀ start, (fields.foldl JsonValue.insertField start).lookup key =
      (fields.reverse ++ start).lookup key by
    rw [JsonValue.record, JsonValue.index, h, List.append_nil]
  induction fields with
  | nil => exact fun start ↦ rfl
  | cons field fields ih =>
    intro start
    rw [List.foldl_cons, ih, List.reverse_cons, List.append_assoc, List.singleton_append,
      List.lookup_append, List.lookup_append, lookup_insertField, lookup_cons_eq]

theorem exact_record {n : ℕ} {fields : List (String × JsonValue)}
    (h : ∀ field ∈ fields, field.2.Exact n) : (JsonValue.record fields).Exact (n + 1) := by
  obtain ⟨sorted, hsorted, -, hmem⟩ := exists_record fields
  rw [hsorted]
  exact .object fun field hfield ↦ h field (hmem field hfield)

/-- A field of a command: a name and a scalar, both short. -/
def ShortField (field : String × JsonValue) : Prop :=
  (stringText field.1).length ≤ 63 ∧ (compact field.2).length ≤ 63 ∧ field.2.Exact 999

theorem length_compactFields_le {fields : List (String × JsonValue)}
    (h : ∀ field ∈ fields, ShortField field) :
    (compactFields fields).length ≤ 128 * fields.length := by
  have hfield {field : String × JsonValue} (h : ShortField field) :
      (compactField field).length ≤ 127 := by
    obtain ⟨hkey, hvalue, -⟩ := h
    rw [compactField, List.length_append, List.length_cons]
    omega
  induction fields with
  | nil => exact Nat.zero_le _
  | cons field fields ih =>
    obtain ⟨hhead, hfields⟩ := List.forall_mem_cons.1 h
    have hlength := hfield hhead
    have ih := ih hfields
    cases fields with
    | nil =>
      rw [compactFields, List.length_singleton]
      omega
    | cons next others =>
      rw [compactFields_cons_cons, List.length_append, List.length_cons]
      simp only [List.length_cons] at ih ⊢
      omega

/-- A record of a few short fields is short. -/
theorem length_compact_record {fields : List (String × JsonValue)}
    (h : ∀ field ∈ fields, ShortField field) (hfew : fields.length ≤ 8) :
    (compact (.record fields)).length < maxCommand := by
  obtain ⟨sorted, hsorted, hlength, hmem⟩ := exists_record fields
  have hfields := length_compactFields_le fun field hfield ↦ h field (hmem field hfield)
  rw [hsorted, compact, List.cons_append, List.length_cons, List.length_append,
    List.length_singleton, maxCommand]
  omega

theorem shortField_int {key : String} {n : ℤ} (hkey : (stringText key).length ≤ 63)
    (hlow : -2147483648 ≤ n) (hhigh : n < 2147483648) : ShortField (key, .ofInt n) := by
  have hn : n.natAbs ≤ 9007199254740992 := by omega
  obtain ⟨-, hround⟩ := JsonNumber.exact_ofInt hn
  refine ⟨hkey, ?_, exact_ofInt hlow hhigh 999⟩
  rw [JsonValue.ofInt, compact, numberText, hround]
  exact length_integerText hn

theorem shortField_string {key s : String} (hkey : (stringText key).length ≤ 63)
    (hs : (stringText s).length ≤ 63) : ShortField (key, .string s) :=
  ⟨hkey, hs, .string _ _⟩

theorem shortField_bool {key : String} (hkey : (stringText key).length ≤ 63) (b : Bool) :
    ShortField (key, .bool b) :=
  ⟨hkey, show (compact (.bool b)).length ≤ 63 by cases b <;> decide, .bool _ _⟩

/-! ### Commands -/

/-- The fields of a command that is not a connect command. -/
theorem exists_short_fields {command : SentCommand} (h : command.IsInput) :
    ∃ fields : List (String × JsonValue), command.value = .record fields ∧ fields.length ≤ 8 ∧
      ∀ field ∈ fields, ShortField field := by
  have hint {key : String} (hkey : (stringText key).length ≤ 63) (n : Int32) :
      ShortField (key, .ofInt n.toInt) := shortField_int hkey n.le_toInt n.toInt_lt
  have hnat {key : String} (hkey : (stringText key).length ≤ 63) {n : ℕ} (hn : n < 65536) :
      ShortField (key, .ofInt n) := shortField_int hkey (by omega) (by omega)
  cases command with
  | connect host port username password width height => exact absurd h not_false
  | mouseMove x y =>
    refine ⟨_, rfl, by simp, ?_⟩
    simp only [List.forall_mem_cons]
    exact ⟨shortField_string (by decide) (by decide), hint (by decide) x, hint (by decide) y, nofun⟩
  | mouseButton down x y button =>
    have hbutton := button.toNat_lt
    cases down
    all_goals
      refine ⟨_, rfl, by simp, ?_⟩
      simp only [List.forall_mem_cons]
      exact ⟨shortField_string (by decide) (by decide), hint (by decide) x, hint (by decide) y,
        hnat (by decide) (by omega), nofun⟩
  | mouseScroll x y delta vertical =>
    refine ⟨_, rfl, by simp, ?_⟩
    simp only [List.forall_mem_cons]
    exact ⟨shortField_string (by decide) (by decide), hint (by decide) x, hint (by decide) y,
      hint (by decide) delta, shortField_bool (by decide) vertical, nofun⟩
  | key down stroke =>
    have hscancode := stroke.scancode.toNat_lt
    refine ⟨_, rfl, by simp, ?_⟩
    simp only [List.forall_mem_cons]
    refine ⟨shortField_string (by decide) ?_, hnat (by decide) (by omega),
      shortField_bool (by decide) stroke.extended, nofun⟩
    cases down <;> decide
  | unicodeKey down codeUnit =>
    have hunit := codeUnit.toNat_lt
    cases down
    all_goals
      refine ⟨_, rfl, by simp, ?_⟩
      simp only [List.forall_mem_cons]
      exact ⟨shortField_string (by decide) (by decide), hnat (by decide) (by omega), nofun⟩
  | resize width height =>
    have hwidth := clampSize_le width.toNat
    have hheight := clampSize_le height.toNat
    refine ⟨_, rfl, by simp, ?_⟩
    simp only [List.forall_mem_cons]
    exact ⟨shortField_string (by decide) (by decide), hnat (by decide) (by omega),
      hnat (by decide) (by omega), hnat (n := 100) (by decide) (by decide),
      hnat (n := 100) (by decide) (by decide), nofun⟩

/-! ### Lines -/

/-- The worker takes an input command for a call. -/
theorem valueAction_value {command : SentCommand} (h : command.IsInput) :
    ∃ kind, kind ≠ "connect" ∧ valueAction true command.value = .call kind := by
  have hcall {fields : List (String × JsonValue)} (kind : String)
      (htype : fields.reverse.lookup "type" = some (.string kind))
      (hconnect : kind ≠ "connect") (hdisconnect : kind ≠ "disconnect") :
      ∃ kind, kind ≠ "connect" ∧ valueAction true (.record fields) = .call kind := by
    refine ⟨kind, hconnect, ?_⟩
    rw [valueAction, index_record, htype]
    simp [JsonValue.asStr, hconnect, hdisconnect]
  cases command with
  | connect host port username password width height => exact absurd h not_false
  | mouseMove x y => exact hcall "mouse_move" rfl (by decide) (by decide)
  | mouseButton down x y button =>
    cases down
    · exact hcall "mouse_button_up" rfl (by decide) (by decide)
    · exact hcall "mouse_button_down" rfl (by decide) (by decide)
  | mouseScroll x y delta vertical =>
    exact hcall "mouse_scroll" rfl (by decide) (by decide)
  | key down stroke =>
    cases down
    · exact hcall "key_up" rfl (by decide) (by decide)
    · exact hcall "key_down" rfl (by decide) (by decide)
  | unicodeKey down codeUnit =>
    cases down
    · exact hcall "unicode_key_up" rfl (by decide) (by decide)
    · exact hcall "unicode_key_down" rfl (by decide) (by decide)
  | resize width height => exact hcall "resize" rfl (by decide) (by decide)

section Lines

variable {fromSlice : List UInt8 → Option JsonValue} {toVec : JsonValue → List UInt8}

/-- A value that is short enough is sent in one line. -/
theorem sent_of_exact (htoVec : Serializes toVec) {n : ℕ} {value : JsonValue}
    (hvalue : value.Exact n) (hlength : (toVec value).length < maxCommand)
    (hread : fromSlice (commandLine toVec value) = some value) : Sent fromSlice toVec value := by
  have hplain {c : UInt8} (hc : c < 0x20) : c ∉ toVec value := by
    rw [htoVec n value hvalue]
    exact fun hmem ↦ UInt8.not_le.2 hc (blank_le_of_mem_compact hvalue c hmem)
  exact ⟨hlength, hplain (by decide), hplain (by decide), hread⟩

theorem sent_record (htoVec : Serializes toVec) {fields : List (String × JsonValue)}
    (hfew : fields.length ≤ 8) (h : ∀ field ∈ fields, ShortField field)
    (hread : fromSlice (commandLine toVec (.record fields)) = some (.record fields)) :
    Sent fromSlice toVec (.record fields) := by
  have hexact : (JsonValue.record fields).Exact 1000 := exact_record fun field hf ↦ (h field hf).2.2
  refine sent_of_exact htoVec hexact ?_ hread
  rw [htoVec 1000 _ hexact]
  exact length_compact_record h hfew

/-- **An input command is sent in one line.** -/
theorem sent_value (htoVec : Serializes toVec) {command : SentCommand} (h : command.IsInput)
    (hread : fromSlice (commandLine toVec command.value) = some command.value) :
    Sent fromSlice toVec command.value := by
  obtain ⟨fields, hfields, hfew, hshort⟩ := exists_short_fields h
  rw [hfields] at hread ⊢
  exact sent_record htoVec hfew hshort hread

/-- So is a connect command, unless its strings are too long. -/
theorem sent_connectCommand (htoVec : Serializes toVec) {host : String} {port : UInt16}
    {username password : String} {width height : ℕ}
    (hlength : (toVec (connectCommand host port username password width height)).length <
      maxCommand)
    (hread : fromSlice (commandLine toVec
      (connectCommand host port username password width height)) =
        some (connectCommand host port username password width height)) :
    Sent fromSlice toVec (connectCommand host port username password width height) := by
  have hconfig := exact_configFields host port username password width height 998
  have hexact : (connectCommand host port username password width height).Exact 1001 := by
    rw [connectCommand_eq]
    refine .object ?_
    simp only [List.forall_mem_cons]
    exact ⟨.object fun field h ↦ (hconfig field h).2, .string _ _, nofun⟩
  exact sent_of_exact htoVec hexact hlength hread

end Lines

end RdpMcp
