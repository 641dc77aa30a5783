import RdpMcp.Native.Command
import RdpMcp.Native.LocalFiles
import RdpMcp.Native.PrintRead

/-!
# Staging what a command says

`clipboard_set_files` is parsed with its command, printed again on the way to the clipboard module,
and parsed a second time there. **The detour loses nothing**: the files that are staged are the
entries of the command that have a path and a name, one by one, with their kinds, and with their
sizes where these are whole numbers below `10 ^ 15` (`stagedFiles_printed`). From there on the
printer keeps 15 digits only, as long as they come close enough. No files are staged for a list that
is empty or has more than 256 entries.
-/

open CheckedBuffer

namespace RdpMcp

/-! ### Items -/

theorem cString_cString (bytes : List UInt8) : cString (cString bytes) = cString bytes :=
  List.takeWhile_idem

section Reread

variable {strtod : List UInt8 → CDouble × ℕ} {sprintf : ℕ → ℚ → List UInt8}
  {sscanf : List UInt8 → Option CDouble}

/-- A field is found under its name before and after. -/
theorem item_reread (item : CJson) (name : String) :
    (item.reread strtod sprintf sscanf).item name =
      (item.item name).map (·.reread strtod sprintf sscanf) := by
  cases item with
  | null | bool b | string bytes | array items =>
    rw [CJson.reread]
    rfl
  | number value =>
    cases value <;> rfl
  | object fields =>
    rw [CJson.reread, rereadFields_eq_map, CJson.item, CJson.item, List.find?_map, Option.map_map,
      Option.map_map]
    have hname : ((fun field : List UInt8 × CJson ↦ decide (cString field.1 = utf8 name)) ∘
        fun field : List UInt8 × CJson ↦
          (cString field.1, field.2.reread strtod sprintf sscanf)) =
        fun field ↦ decide (cString field.1 = utf8 name) := by
      funext field
      simp only [Function.comp, cString_cString]
    rw [hname]
    rfl

/-- What the printer and the parser rely on the C library for, about integers of 15 digits. -/
def ExactIntegers (sprintf : ℕ → ℚ → List UInt8) (sscanf : List UInt8 → Option CDouble) : Prop :=
  ∀ n : ℤ, n.natAbs < 1000000000000000 →
    sprintf 15 n = integerText n ∧ sscanf (integerText n) = some (.finite n)

/-- **An integer of 15 digits is read back as it is.** -/
theorem rereadNumber_integer (hexact : ExactIntegers sprintf sscanf)
    (hstrtod : StrtodExact strtod) {n : ℤ} (hn : n.natAbs < 1000000000000000) :
    rereadNumber strtod sprintf sscanf (.finite n) = .number (.finite n) := by
  obtain ⟨hprint, hscan⟩ := hexact n hn
  have htext : printedNumber sprintf sscanf (.finite n) = integerText n := by
    rw [printedNumber]
    split_ifs with hint
    · exact congrArg integerText (by exact_mod_cast hint.symm)
    · dsimp only
      rw [hprint, hscan]
      dsimp only
      rw [if_pos]
      rw [compareDouble, sub_self, abs_zero, max_self]
      exact decide_eq_true (by positivity)
  rw [rereadNumber, htext, hstrtod n (by omega)]

theorem getString_reread (item : CJson) (name : String) :
    (item.reread strtod sprintf sscanf).getString name = item.getString name := by
  rw [CJson.getString, CJson.getString, item_reread]
  cases item.item name with
  | none => rfl
  | some value =>
    rw [Option.map_some]
    cases value with
    | null | bool b | array items | object fields => rw [CJson.reread]
    | number value => cases value <;> rfl
    | string bytes =>
      rw [CJson.reread]
      exact congrArg some (cString_cString bytes)

theorem getBool_reread (item : CJson) (name : String) (default : Bool) :
    (item.reread strtod sprintf sscanf).getBool name default = item.getBool name default := by
  rw [CJson.getBool, CJson.getBool, item_reread]
  cases item.item name with
  | none => rfl
  | some value =>
    rw [Option.map_some]
    cases value with
    | null | bool b | string bytes | array items | object fields => rw [CJson.reread]
    | number value => cases value <;> rfl

/-! ### Entries -/

/-- The size of an entry. -/
def CJson.entrySize (item : CJson) : UInt64 :=
  match item.item "size" with
  | some (.number size) => size.toUInt64
  | _ => 0

theorem localFileOf_eq (item : CJson) :
    localFileOf item = (item.getString "path").bind fun path ↦
      (item.getString "name").map fun name ↦
        { path, name, size := item.entrySize,
          isDirectory := item.getBool "isDirectory" false } := by
  rw [localFileOf, CJson.getString, CJson.getString]
  split
  case h_1 path name hpath hname =>
    rw [hpath, hname]
    rfl
  case h_2 hnone =>
    split
    case h_2 => rfl
    case h_1 path hpath =>
      split
      case h_2 => rfl
      case h_1 name hname => exact absurd hname (hnone path name hpath)

/-- An entry that a file is staged for. -/
def CJson.Named (item : CJson) : Bool :=
  (item.getString "path").isSome && (item.getString "name").isSome

/-- The file that is staged for an entry. -/
structure CJson.Stages (item : CJson) (file : LocalFile) : Prop where
  path : item.getString "path" = some file.path
  name : item.getString "name" = some file.name
  isDirectory : file.isDirectory = item.getBool "isDirectory" false
  size : ∀ n : ℕ, item.item "size" = some (.number (.finite n)) → n < 1000000000000000 →
    file.size.toNat = n
  no_size : (∀ size, item.item "size" ≠ some (.number size)) → file.size = 0

/-- **The size survives** if it has no more than 15 digits. -/
theorem entrySize_reread (hexact : ExactIntegers sprintf sscanf) (hstrtod : StrtodExact strtod)
    {item : CJson} {n : ℕ} (hsize : item.item "size" = some (.number (.finite n)))
    (hn : n < 1000000000000000) :
    (item.reread strtod sprintf sscanf).entrySize.toNat = n := by
  have hnumber : rereadNumber strtod sprintf sscanf (.finite ((n : ℤ) : ℚ)) =
      .number (.finite ((n : ℤ) : ℚ)) := rereadNumber_integer hexact hstrtod hn
  rw [Int.cast_natCast] at hnumber
  rw [CJson.entrySize, item_reread, hsize, Option.map_some, CJson.reread, hnumber]
  show (UInt64.ofInt (((n : ℚ).num).tdiv (n : ℚ).den)).toNat = n
  rw [Rat.num_natCast, Rat.den_natCast, Nat.cast_one, Int.tdiv_one, UInt64.ofInt]
  have hword : ((n : ℤ) % 2 ^ 64).toNat = n := by omega
  rw [hword]
  exact UInt64.toNat_ofNat_of_lt' (by show n < 2 ^ 64; omega)

theorem entrySize_reread_of_ne {item : CJson}
    (hsize : ∀ size, item.item "size" ≠ some (.number size)) :
    (item.reread strtod sprintf sscanf).entrySize = 0 := by
  rw [CJson.entrySize, item_reread]
  cases hitem : item.item "size" with
  | none => rfl
  | some value =>
    rw [Option.map_some]
    cases value with
    | null | bool b | string bytes | array items | object fields => rw [CJson.reread]
    | number value => exact absurd hitem (hsize value)

/-- **One entry**: the file of what is read back is the one to be staged. -/
theorem localFileOf_reread (hexact : ExactIntegers sprintf sscanf) (hstrtod : StrtodExact strtod)
    (item : CJson) :
    (∃ file, localFileOf (item.reread strtod sprintf sscanf) = some file ∧ item.Named = true ∧
      item.Stages file) ∨
    localFileOf (item.reread strtod sprintf sscanf) = none ∧ item.Named = false := by
  rw [localFileOf_eq, getString_reread, getString_reread, getBool_reread, CJson.Named]
  cases hpath : item.getString "path" with
  | none => exact .inr ⟨rfl, rfl⟩
  | some path =>
    cases hname : item.getString "name" with
    | none => exact .inr ⟨rfl, rfl⟩
    | some name =>
      exact .inl ⟨_, rfl, rfl, hpath, hname, rfl, fun n ↦ entrySize_reread hexact hstrtod,
        entrySize_reread_of_ne⟩

/-- **All entries**, in their order. -/
theorem forall₂_stages (hexact : ExactIntegers sprintf sscanf) (hstrtod : StrtodExact strtod)
    (items : List CJson) :
    List.Forall₂ CJson.Stages (items.filter CJson.Named)
      (items.filterMap fun item ↦ localFileOf (item.reread strtod sprintf sscanf)) := by
  induction items with
  | nil => exact .nil
  | cons item items ih =>
    obtain ⟨file, hfile, hnamed, hstages⟩ | ⟨hnone, hunnamed⟩ :=
      localFileOf_reread hexact hstrtod item
    · rw [List.filter_cons_of_pos hnamed, List.filterMap_cons, hfile]
      exact .cons hstages ih
    · rw [List.filter_cons_of_neg (by rw [hunnamed]; exact Bool.false_ne_true),
        List.filterMap_cons, hnone]
      exact ih

/-! ### Staging -/

theorem CJson.Within.item {n : ℕ} {json value : CJson} {name : String} (h : json.Within n)
    (hitem : json.item name = some value) : value.Within n := by
  cases h with
  | null | bool b | number value | string bytes => cases hitem
  | array h => cases hitem
  | object h =>
    obtain ⟨field, hfield, rfl⟩ := Option.map_eq_some_iff.1 hitem
    exact (h field (List.mem_of_find?_eq_some hfield)).succ

/-- A branch that another value is from is not taken. -/
theorem eq_of_ite_eq {α : Type} {c : Prop} [Decidable c] {a b x : α}
    (h : (if c then a else b) = x) (hne : a ≠ x) : b = x := by
  split_ifs at h
  · exact absurd h hne
  · exact h

/-- The levels of an item of a command have been counted. -/
theorem within_of_parse {text : List UInt8} {files : CJson}
    (h : protocolParseCommand strtod text = some (.clipboardSetFiles (some files))) :
    files.Within nestingLimit := by
  rw [protocolParseCommand] at h
  split_ifs at h
  split at h
  · cases h
  case h_2 json hjson =>
    split at h
    · cases h
    case h_2 type htype =>
      have hitem : json.item "files" = some files := by
        have h := Option.some.inj h
        rw [parseTyped] at h
        iterate 12 replace h := eq_of_ite_eq h fun h ↦ by cases h
        by_cases hfiles : type = utf8 "clipboard_set_files"
        · rw [if_pos hfiles] at h
          exact Command.clipboardSetFiles.inj h
        · rw [if_neg hfiles] at h
          replace h := eq_of_ite_eq h fun h ↦ by cases h
          cases h
      obtain ⟨⟨parsed, left⟩, hparsed, rfl⟩ := Option.map_eq_some_iff.1 hjson
      exact (parseValue_within hparsed).item hitem

/-- **What a command stages is what the command says**: nothing if it lists no files or too many,
and else a file for each entry with a path and a name, in their order. -/
theorem stagedFiles_printed (hformat : FormatsDoubles sprintf)
    (htakes : TakesPrinted strtod sprintf) (hstrtod : StrtodExact strtod)
    (hexact : ExactIntegers sprintf sscanf) {realloc : List UInt8 → ℕ → Option (List UInt8)}
    (hrealloc : Reallocates realloc) {first : Option (List UInt8)}
    (hfirst : ∀ bytes ∈ first, bytes.length = 256) {text printed : List UInt8}
    {items : List CJson}
    (hcommand : protocolParseCommand strtod text = some (.clipboardSetFiles (some (.array items))))
    (hprint : cJsonPrintUnformatted sprintf sscanf realloc first (.array items) = .ok printed) :
    ∃ files, stagedFiles strtod printed =
        some (if items = [] ∨ maxLocalFiles < items.length then none else some files) ∧
      List.Forall₂ CJson.Stages (items.filter CJson.Named) files := by
  obtain rfl := (yields_cJsonPrintUnformatted sscanf hformat hrealloc hfirst _).of_ok hprint
  have hread := cJsonParse_text sscanf hformat htakes hstrtod
    (within_of_parse hcommand)
  rw [CJson.reread, rereadItems_eq_map] at hread
  refine ⟨items.filterMap fun item ↦ localFileOf (item.reread strtod sprintf sscanf), ?_,
    forall₂_stages hexact hstrtod items⟩
  have hlength : ((items.map (·.reread strtod sprintf sscanf)).length = 0 ∨
      (items.map (·.reread strtod sprintf sscanf)).length > maxLocalFiles) ↔
      items = [] ∨ maxLocalFiles < items.length := by
    rw [List.length_map, List.length_eq_zero_iff]
  rw [stagedFiles, hread]
  dsimp only
  by_cases hnone : items = [] ∨ maxLocalFiles < items.length
  · rw [if_pos (hlength.2 hnone), if_pos hnone]
  · rw [if_neg (fun h ↦ hnone (hlength.1 h)), if_neg hnone, List.filterMap_map]
    rfl

end Reread

/-! ### A command -/

theorem takesPrinted_truncatedText : TakesPrinted strtodInteger truncatedText := by
  intro k _ d
  have hsmall : (if (d.num.tdiv d.den).natAbs < 1000000000000000 then d.num.tdiv d.den
      else 0).natAbs ≤ 9007199254740992 := by
    split_ifs <;> omega
  exact congrArg Prod.snd (strtodExact_strtodInteger _ hsmall)

theorem exactIntegers_truncatedText :
    ExactIntegers truncatedText fun text ↦ some (strtodInteger text).1 := by
  intro n hn
  refine ⟨?_, congrArg some (congrArg Prod.fst (strtodExact_strtodInteger n (by omega)))⟩
  rw [truncatedText, Rat.num_intCast, Rat.den_intCast, Nat.cast_one, Int.tdiv_one, if_pos hn]

/-- An entry of more than four gigabytes. -/
def stageFile : CJson :=
  .object [(utf8 "path", .string (utf8 "/tmp/a")), (utf8 "name", .string (utf8 "a")),
    (utf8 "size", .number (.finite 5000000000))]

def stageDirectory : CJson :=
  .object [(utf8 "path", .string (utf8 "/tmp/d")), (utf8 "name", .string (utf8 "d")),
    (utf8 "isDirectory", .bool true)]

/-- The third entry has no name. -/
def stageItems : List CJson :=
  [stageFile, stageDirectory, .object [(utf8 "path", .string (utf8 "/tmp/x"))]]

/-- The command that stages them. -/
def stageCommand : CJson :=
  .object [(utf8 "type", .string (utf8 "clipboard_set_files")), (utf8 "files", .array stageItems)]

theorem parse_stageCommand :
    protocolParseCommand strtodInteger
        (stageCommand.text truncatedText fun text ↦ some (strtodInteger text).1) =
      some (.clipboardSetFiles (some (.array stageItems))) := by
  have hsize : rereadNumber strtodInteger truncatedText (fun text ↦ some (strtodInteger text).1)
      (.finite 5000000000) = .number (.finite 5000000000) :=
    rereadNumber_integer exactIntegers_truncatedText strtodExact_strtodInteger
      (n := 5000000000) (by decide)
  have hitems : (CJson.array stageItems).Within 999 := by
    refine .array fun item hitem ↦ ?_
    simp only [stageItems, List.mem_cons, List.not_mem_nil, or_false] at hitem
    rcases hitem with rfl | rfl | rfl <;> refine .object fun field hfield ↦ ?_ <;>
      simp only [List.mem_cons, List.not_mem_nil, or_false] at hfield
    · rcases hfield with rfl | rfl | rfl <;> constructor
    · rcases hfield with rfl | rfl | rfl <;> constructor
    · subst hfield
      constructor
  have hwithin : stageCommand.Within nestingLimit := by
    refine .object fun field hfield ↦ ?_
    simp only [List.mem_cons, List.not_mem_nil, or_false] at hfield
    rcases hfield with rfl | rfl
    · exact .string _ _
    · exact hitems
  have hread := cJsonParse_text (fun text ↦ some (strtodInteger text).1)
    formatsDoubles_truncatedText takesPrinted_truncatedText strtodExact_strtodInteger hwithin
  have hself : stageCommand.reread strtodInteger truncatedText
      (fun text ↦ some (strtodInteger text).1) = stageCommand := by
    simp only [stageCommand, stageItems, stageFile, stageDirectory, CJson.reread, rereadFields,
      rereadItems, hsize]
    rfl
  rw [protocolParseCommand, if_neg (by decide +kernel), hread, hself]
  rfl

/-- **The file and the directory are staged**, and the entry without a name is not. -/
theorem stagedFiles_printed_stageCommand :
    ∃ printed file directory,
      cJsonPrintUnformatted truncatedText (fun text ↦ some (strtodInteger text).1)
        grownBytes firstBytes (.array stageItems) = .ok printed ∧
      stagedFiles strtodInteger printed = some (some [file, directory]) ∧
      (file.path, file.name, file.size.toNat, file.isDirectory) =
        (utf8 "/tmp/a", utf8 "a", 5000000000, false) ∧
      (directory.path, directory.name, directory.size, directory.isDirectory) =
        (utf8 "/tmp/d", utf8 "d", 0, true) := by
  have hprint := cJsonPrintUnformatted_eq (fun text ↦ some (strtodInteger text).1)
    formatsDoubles_truncatedText reallocates_grownBytes length_firstBytes
    (.array stageItems) rfl (fun _ _ ↦ rfl) (by decide +kernel)
  obtain ⟨files, hstaged, hfiles⟩ := stagedFiles_printed formatsDoubles_truncatedText
    takesPrinted_truncatedText strtodExact_strtodInteger exactIntegers_truncatedText
    reallocates_grownBytes length_firstBytes parse_stageCommand hprint
  have hnamed : stageItems.filter CJson.Named = [stageFile, stageDirectory] := rfl
  have hfew : ¬(stageItems = [] ∨ maxLocalFiles < stageItems.length) :=
    not_or.2 ⟨List.cons_ne_nil _ _, by decide⟩
  rw [if_neg hfew] at hstaged
  rw [hnamed] at hfiles
  obtain ⟨file, rest, hfile, hrest, rfl⟩ := List.forall₂_cons_left_iff.1 hfiles
  obtain ⟨directory, none, hdirectory, hnone, rfl⟩ := List.forall₂_cons_left_iff.1 hrest
  obtain rfl := List.forall₂_nil_left_iff.1 hnone
  refine ⟨_, file, directory, hprint, hstaged, ?_, ?_⟩
  · have hpath : utf8 "/tmp/a" = file.path := Option.some.inj hfile.path
    have hname : utf8 "a" = file.name := Option.some.inj hfile.name
    have hitem : stageFile.item "size" = some (.number (.finite 5000000000)) := rfl
    have hsize := hfile.size 5000000000 (by rw [hitem, Nat.cast_ofNat]) (by decide)
    rw [← hpath, ← hname, hfile.isDirectory, hsize]
    rfl
  · have hpath : utf8 "/tmp/d" = directory.path := Option.some.inj hdirectory.path
    have hname : utf8 "d" = directory.name := Option.some.inj hdirectory.name
    rw [← hpath, ← hname, hdirectory.isDirectory,
      hdirectory.no_size fun size hsize ↦ by cases hsize]
    rfl

end RdpMcp
