import RdpMcp.Native.FileList
import RdpMcp.Native.LocalFiles
import RdpMcp.Native.Staged
import RdpMcp.Native.WideText

/-!
# Descriptors of files

When files are staged, a descriptor is built for each: its kind, its size, and 260 units for its
name, of which the last is zero. The other side of the clipboard channel reads descriptors and
reports a list of files. **The two halves of one module meet here**: what the one writes about
staged files, the other lists, file by file, with their names, sizes and kinds
(`fileList_described`), and the text of the list is JSON that says the same (`listText_described`).

Names are cut after 259 units. Slashes travel as backslashes and come back as slashes, so that a
backslash in a name comes back as a slash too.
-/

open LittleEndian CheckedBuffer

namespace RdpMcp

/-! ### Local files -/

/-- `FILEDESCRIPTORW`, as far as it is written; the rest is zero. -/
structure FileDescriptorW where
  dwFlags : UInt32
  dwFileAttributes : UInt32
  nFileSizeHigh : UInt32
  nFileSizeLow : UInt32
  cFileName : List UInt16
  deriving DecidableEq, Repr

/-- `FD_ATTRIBUTES`. -/
def fdAttributes : UInt32 := 0x4

/-- `FD_FILESIZE`. -/
def fdFileSize : UInt32 := 0x40

/-- `FILE_ATTRIBUTE_NORMAL`. -/
def fileAttributeNormal : UInt32 := 0x80

/-- The units of a name in its array of 260, with backslashes. -/
def fileNameUnits (units : List UInt16) : List UInt16 :=
  let copied := (units.take 259).map fun unit ↦ if unit = 0x2f then 0x5c else unit
  copied ++ List.replicate (260 - copied.length) 0

/-- The descriptor that `cliprdr_file_set_local_files` builds. -/
def LocalFile.descriptor (conversions : Conversions) (file : LocalFile) : FileDescriptorW where
  dwFlags := fdAttributes ||| fdFileSize
  dwFileAttributes := if file.isDirectory then fileAttributeDirectory else fileAttributeNormal
  nFileSizeHigh := if file.isDirectory then 0 else (file.size >>> 32).toUInt32
  nFileSizeLow := if file.isDirectory then 0 else (file.size &&& 0xffffffff).toUInt32
  cFileName := fileNameUnits ((conversions.toWChar file.name).getD [])

/-! ### Remote files -/

/-- What is read of a descriptor; `descriptor_name_to_utf8` converts the name. -/
def FileDescriptorW.sized (conversions : Conversions) (descriptor : FileDescriptorW) :
    SizedDescriptor where
  attributes := descriptor.dwFileAttributes
  utf8Name := conversions.toUtf8 descriptor.cFileName
  nFileSizeHigh := descriptor.nFileSizeHigh
  nFileSizeLow := descriptor.nFileSizeLow

/-- The list in JSON that `cliprdr_file_handle_fgd_response` prints; sizes are converted to doubles.
-/
def ListedFile.json (toDouble : UInt64 → ℚ) (file : ListedFile) : CJson :=
  .object [(utf8 "name", .string file.name), (utf8 "size", .number (.finite (toDouble file.size))),
    (utf8 "isDir", .bool file.isDir)]

def listJson (toDouble : UInt64 → ℚ) (files : List ListedFile) : CJson :=
  .object [(utf8 "files", .array (files.map (ListedFile.json toDouble)))]

/-! ### Names -/

/-- A name with other separators. -/
def withSeparator (old new : Char) (name : String) : String :=
  String.ofList (name.toList.map fun c ↦ if c = old then new else c)

/-- A name as it is listed on the other side. -/
def listedName (name : String) : String :=
  withSeparator '\\' '/' name

theorem map_encode_separator (c : Char) :
    (Utf16.encode c).map (fun unit ↦ if unit = 0x2f then 0x5c else unit) =
      Utf16.encode (if c = '/' then '\\' else c) := by
  split_ifs with hslash
  · subst hslash
    decide
  · -- no unit of another character is a slash
    have hne : ∀ unit ∈ Utf16.encode c, unit ≠ 0x2f := by
      rintro unit hunit rfl
      rcases Utf16.toNat_eq_or_le_of_mem_encode hunit with hcode | hsurrogate
      · exact hslash (Char.toNat_inj.1 hcode.symm)
      · exact absurd hsurrogate (by decide)
    conv_rhs => rw [← List.map_id (Utf16.encode c)]
    exact List.map_congr_left fun unit hunit ↦ if_neg (hne unit hunit)

/-- Slashes are sent as backslashes. -/
theorem map_utf16_separator (name : String) :
    (utf16 name).map (fun unit ↦ if unit = 0x2f then 0x5c else unit) =
      utf16 (withSeparator '/' '\\' name) := by
  rw [utf16, utf16, withSeparator, String.toList_ofList, List.map_flatMap, List.flatMap_map]
  exact congrArg (List.flatMap · name.toList) (funext map_encode_separator)

/-- Backslashes are read as slashes. -/
theorem normalizePathSeparators_utf8 (name : String) :
    normalizePathSeparators (utf8 name) = utf8 (listedName name) := by
  rw [normalizePathSeparators, utf8_eq_flatMap, utf8_eq_flatMap, listedName, withSeparator,
    String.toList_ofList, List.map_flatMap, List.flatMap_map]
  refine congrArg (List.flatMap · name.toList) (funext fun c ↦ ?_)
  split_ifs with hbackslash
  · subst hbackslash
    decide
  · have hne : ∀ b ∈ String.utf8EncodeChar c, b ≠ 0x5c := by
      rintro b hb rfl
      have hvalue : (0x5c : UInt8).toNat = 92 := rfl
      rcases utf8EncodeChar_cases c with ⟨hlow, hbytes⟩ | ⟨-, hbytes⟩
      · rw [hbytes] at hb
        have hcode := congrArg UInt8.toNat (List.mem_singleton.1 hb)
        rw [UInt8.toNat_ofNat_of_lt' (Nat.lt_trans hlow (by decide))] at hcode
        exact hbackslash (Char.toNat_inj.1 hcode.symm)
      · exact absurd (hbytes _ hb) (by decide)
    conv_rhs => rw [← List.map_id (String.utf8EncodeChar c)]
    exact List.map_congr_left fun b hb ↦ if_neg (hne b hb)

theorem listedName_sent (name : String) :
    listedName (withSeparator '/' '\\' name) = listedName name := by
  rw [listedName, withSeparator, withSeparator, String.toList_ofList, List.map_map, listedName,
    withSeparator]
  refine congrArg String.ofList (List.map_congr_left fun c _ ↦ ?_)
  by_cases hslash : c = '/'
  · subst hslash
    decide
  · simp [hslash]

theorem cText_withSeparator {old new : Char} (hnew : new ≠ '\x00') {name : String}
    (h : CText name) : CText (withSeparator old new name) := by
  rw [CText, withSeparator, String.toList_ofList, List.mem_map]
  rintro ⟨c, hc, heq⟩
  split_ifs at heq with hold
  · exact hnew heq
  · exact h (heq ▸ hc)

/-! ### Files -/

/-- A file with a name that can be described. -/
structure Described (file : LocalFile) (name : String) : Prop where
  name_eq : file.name = utf8 name
  text : CText name
  fits : (utf16 name).length ≤ 259

/-- What is listed of a file. -/
def LocalFile.listed (file : LocalFile) (name : String) : ListedFile where
  name := utf8 (listedName name)
  size := if file.isDirectory then 0 else file.size
  isDir := file.isDirectory

/-- The halves of a size. -/
theorem size_of_halves (size : UInt64) :
    (size >>> 32).toUInt32.toUInt64 <<< 32 ||| (size &&& 0xffffffff).toUInt32.toUInt64 = size := by
  have hsize := size.toNat_lt
  have hhigh : ((size >>> 32).toUInt32.toUInt64 <<< 32).toNat = 2 ^ 32 * (size.toNat / 2 ^ 32) := by
    rw [UInt64.toNat_shiftLeft, UInt32.toNat_toUInt64, UInt64.toNat_toUInt32,
      UInt64.toNat_shiftRight]
    show (size.toNat >>> 32 % 2 ^ 32) <<< 32 % 2 ^ 64 = _
    rw [Nat.shiftRight_eq_div_pow, Nat.shiftLeft_eq]
    omega
  have hlow : (size &&& 0xffffffff).toUInt32.toUInt64.toNat = size.toNat % 2 ^ 32 := by
    rw [UInt32.toNat_toUInt64, UInt64.toNat_toUInt32, UInt64.toNat_and]
    show (size.toNat &&& (2 ^ 32 - 1)) % 2 ^ 32 = _
    rw [Nat.and_two_pow_sub_one_eq_mod, Nat.mod_mod]
  apply UInt64.toNat_inj.1
  rw [UInt64.toNat_or, hhigh, hlow, ← Nat.two_pow_add_eq_or_of_lt (Nat.mod_lt _ (by decide))]
  exact Nat.div_add_mod _ _

variable {conversions : Conversions} {files : List LocalFile} {names : List String}

/-- The name of a descriptor is read as the name of its file. -/
theorem utf8Name_described (hconversions : conversions.Faithful) {file : LocalFile} {name : String}
    (h : Described file name) :
    conversions.toUtf8 (file.descriptor conversions).cFileName =
      some (utf8 (withSeparator '/' '\\' name)) := by
  have hcopied : (utf16 name).take 259 = utf16 name := List.take_of_length_le h.fits
  rw [LocalFile.descriptor, h.name_eq, hconversions.toWChar name h.text, Option.getD_some,
    fileNameUnits, hcopied, map_utf16_separator]
  refine hconversions.toUtf8 _ (cText_withSeparator (by decide) h.text) _ fun unit hunit ↦ ?_
  exact List.eq_of_mem_replicate (List.mem_of_mem_head? hunit)

/-- **A descriptor is listed as its file.** -/
theorem listed_described (hconversions : conversions.Faithful) {file : LocalFile} {name : String}
    (h : Described file name) :
    ((file.descriptor conversions).sized conversions).listed = some (file.listed name) := by
  have hsize : (file.descriptor conversions).nFileSizeHigh.toUInt64 <<< 32 |||
      (file.descriptor conversions).nFileSizeLow.toUInt64 =
        if file.isDirectory then 0 else file.size := by
    rw [LocalFile.descriptor]
    dsimp only
    split_ifs
    · decide
    · exact size_of_halves file.size
  have hkind (isDirectory : Bool) : decide ((if isDirectory then fileAttributeDirectory
      else fileAttributeNormal) &&& fileAttributeDirectory ≠ 0) = isDirectory := by
    cases isDirectory <;> decide
  have hdirectory : ((file.descriptor conversions).sized conversions).isDirectory =
      file.isDirectory := hkind file.isDirectory
  rw [SizedDescriptor.listed, hdirectory, FileDescriptorW.sized]
  dsimp only
  rw [hsize, utf8Name_described hconversions h, Option.map_some, normalizePathSeparators_utf8,
    listedName_sent]
  rfl

/-- **The list is that of the files**, in their order. -/
theorem fileList_described (hconversions : conversions.Faithful)
    (h : List.Forall₂ Described files names) :
    fileList ((files.map (LocalFile.descriptor conversions)).map
      (FileDescriptorW.sized conversions)) = List.zipWith LocalFile.listed files names := by
  rw [fileList, map_listFrom]
  induction h with
  | nil => rfl
  | cons hfile _ ih =>
    rw [List.map_cons, List.map_cons,
      List.filterMap_cons_some (listed_described hconversions hfile), ih, List.zipWith_cons_cons]

/-! ### The text of a list -/

/-- Doubles have all whole numbers of 53 bits. -/
def ExactSizes (toDouble : UInt64 → ℚ) : Prop :=
  ∀ size : UInt64, size.toNat < 9007199254740992 → toDouble size = (size.toNat : ℤ)

section Text

variable {strtod : List UInt8 → CDouble × ℕ} {sprintf : ℕ → ℚ → List UInt8}
  {sscanf : List UInt8 → Option CDouble} {toDouble : UInt64 → ℚ}

/-- An element of a list is read as it is. -/
theorem reread_json (hstrtod : StrtodExact strtod) (hexact : ExactIntegers sprintf sscanf)
    (hdouble : ExactSizes toDouble) {file : ListedFile} (hname : cString file.name = file.name)
    (hsize : file.size.toNat < 1000000000000000) :
    (file.json toDouble).reread strtod sprintf sscanf = file.json toDouble := by
  have hnumber : rereadNumber strtod sprintf sscanf (.finite (toDouble file.size)) =
      .number (.finite (toDouble file.size)) := by
    rw [hdouble _ (by omega)]
    exact rereadNumber_integer hexact hstrtod (by omega)
  have hkey (key : String) (hkey : CText key) : cString (utf8 key) = utf8 key :=
    cString_utf8_eq_iff.2 hkey
  rw [ListedFile.json, CJson.reread, rereadFields_eq_map, List.map_cons, List.map_cons,
    List.map_cons, List.map_nil, CJson.reread, CJson.reread, CJson.reread, hnumber, hname,
    hkey "name" (by decide), hkey "size" (by decide), hkey "isDir" (by decide)]

theorem within_listJson (toDouble : UInt64 → ℚ) (files : List ListedFile) :
    (listJson toDouble files).Within nestingLimit := by
  have hfile (file : ListedFile) : (file.json toDouble).Within 998 := by
    refine .object fun field hfield ↦ ?_
    simp only [List.mem_cons, List.not_mem_nil, or_false] at hfield
    rcases hfield with rfl | rfl | rfl
    · exact .string _ _
    · exact .number _ _
    · exact .bool _ _
  refine .object fun field hfield ↦ ?_
  obtain rfl := List.mem_singleton.1 hfield
  refine .array fun item hitem ↦ ?_
  obtain ⟨file, -, rfl⟩ := List.mem_map.1 hitem
  exact hfile file

/-- **The text of a list is read as the list.** -/
theorem cJsonParse_listJson (hformat : FormatsDoubles sprintf)
    (htakes : TakesPrinted strtod sprintf) (hstrtod : StrtodExact strtod)
    (hexact : ExactIntegers sprintf sscanf) (hdouble : ExactSizes toDouble)
    {listed : List ListedFile} (hnames : ∀ file ∈ listed, cString file.name = file.name)
    (hsizes : ∀ file ∈ listed, file.size.toNat < 1000000000000000) :
    cJsonParse strtod ((listJson toDouble listed).text sprintf sscanf) =
      some (listJson toDouble listed) := by
  rw [cJsonParse_text sscanf hformat htakes hstrtod (within_listJson toDouble listed), listJson,
    CJson.reread, rereadFields_eq_map, List.map_cons, List.map_nil, CJson.reread,
    rereadItems_eq_map, List.map_map, cString_utf8_eq_iff.2 (show CText "files" by decide)]
  refine congrArg some (congrArg CJson.object (congrArg (fun items ↦ [(_, CJson.array items)]) ?_))
  exact List.map_congr_left fun file hfile ↦
    reread_json hstrtod hexact hdouble (hnames file hfile) (hsizes file hfile)

end Text

/-- Names that are listed are C strings. -/
theorem cString_listed (h : List.Forall₂ Described files names) :
    ∀ file ∈ List.zipWith LocalFile.listed files names, cString file.name = file.name := by
  induction h with
  | nil => exact fun file hfile ↦ absurd hfile List.not_mem_nil
  | cons hfile _ ih =>
    rw [List.zipWith_cons_cons]
    exact List.forall_mem_cons.2
      ⟨cString_utf8_eq_iff.2 (cText_withSeparator (by decide) hfile.text), ih⟩

/-- Sizes are listed as they are staged. -/
theorem size_listed {bound : ℕ} (hpos : 0 < bound)
    (hsizes : ∀ file ∈ files, file.isDirectory = false → file.size.toNat < bound) :
    ∀ file ∈ List.zipWith LocalFile.listed files names, file.size.toNat < bound := by
  intro listed hlisted
  obtain ⟨i, hi, rfl⟩ := List.getElem_of_mem hlisted
  rw [List.getElem_zipWith, LocalFile.listed]
  dsimp only
  split_ifs with hdirectory
  · exact hpos
  · exact hsizes _ (List.getElem_mem _) (Bool.eq_false_iff.2 hdirectory)

/-! ### The format on the wire -/

/-- A descriptor in its 592 bytes. -/
def FileDescriptorW.bytes (descriptor : FileDescriptorW) : List UInt8 :=
  toBytes 4 descriptor.dwFlags.toNat ++ List.replicate 32 0 ++
    toBytes 4 descriptor.dwFileAttributes.toNat ++ List.replicate 24 0 ++
    toBytes 4 descriptor.nFileSizeHigh.toNat ++ toBytes 4 descriptor.nFileSizeLow.toNat ++
    wcharBytes descriptor.cFileName

/-- The bytes of a list, unless a name is not in its array. -/
def fileListBytes (descriptors : List FileDescriptorW) : Option (List UInt8) :=
  if descriptors.length < 2 ^ 32 ∧
      ∀ descriptor ∈ descriptors, descriptor.cFileName.length = 260 then
    some (toBytes 4 descriptors.length ++ descriptors.flatMap FileDescriptorW.bytes)
  else none

/-- A number of four bytes. -/
def fieldAt (bytes : List UInt8) (i : ℕ) : UInt32 :=
  UInt32.ofNat (ofBytes ((bytes.drop i).take 4))

/-- The descriptor at the beginning of its bytes. -/
def descriptorAt (bytes : List UInt8) : FileDescriptorW where
  dwFlags := fieldAt bytes 0
  dwFileAttributes := fieldAt bytes 36
  nFileSizeHigh := fieldAt bytes 64
  nFileSizeLow := fieldAt bytes 68
  cFileName := wchars ((bytes.drop 72).take 520)

/-- The descriptors in a list of bytes. -/
def descriptorsIn : ℕ → List UInt8 → List FileDescriptorW
  | 0, _ => []
  | n + 1, bytes => descriptorAt bytes :: descriptorsIn n (bytes.drop 592)

def parseFileListBytes (data : List UInt8) : List FileDescriptorW :=
  descriptorsIn (ofBytes (data.take 4)) (data.drop 4)

theorem fieldAt_append {front rest : List UInt8} {i : ℕ} (hi : front.length = i) (value : UInt32) :
    fieldAt (front ++ (toBytes 4 value.toNat ++ rest)) i = value := by
  rw [fieldAt, List.drop_left' hi, List.take_left' (length_toBytes 4 _),
    ofBytes_toBytes_of_lt value.toNat_lt, UInt32.ofNat_toNat]

theorem length_bytes {descriptor : FileDescriptorW} (h : descriptor.cFileName.length = 260) :
    descriptor.bytes.length = 592 := by
  simp [FileDescriptorW.bytes, length_wcharBytes, h]

theorem descriptorAt_bytes {descriptor : FileDescriptorW} (h : descriptor.cFileName.length = 260)
    (rest : List UInt8) : descriptorAt (descriptor.bytes ++ rest) = descriptor := by
  have hname : ((descriptor.bytes ++ rest).drop 72).take 520 = wcharBytes descriptor.cFileName := by
    rw [FileDescriptorW.bytes, List.append_assoc, List.drop_left' (by simp),
      List.take_left' (by rw [length_wcharBytes, h])]
  rw [descriptorAt, hname, wchars_wcharBytes]
  simp only [FileDescriptorW.bytes, List.append_assoc]
  congr 1
  · exact fieldAt_append (show ([] : List UInt8).length = 0 from rfl) _
  · rw [← List.append_assoc]
    exact fieldAt_append (by simp) _
  · rw [← List.append_assoc, ← List.append_assoc, ← List.append_assoc]
    exact fieldAt_append (by simp) _
  · rw [← List.append_assoc, ← List.append_assoc, ← List.append_assoc, ← List.append_assoc]
    exact fieldAt_append (by simp) _

theorem descriptorsIn_bytes {descriptors : List FileDescriptorW}
    (h : ∀ descriptor ∈ descriptors, descriptor.cFileName.length = 260) :
    descriptorsIn descriptors.length (descriptors.flatMap FileDescriptorW.bytes) = descriptors := by
  induction descriptors with
  | nil => rfl
  | cons descriptor descriptors ih =>
    obtain ⟨hfirst, hothers⟩ := List.forall_mem_cons.1 h
    rw [List.length_cons, descriptorsIn, List.flatMap_cons, descriptorAt_bytes hfirst,
      List.drop_left' (length_bytes hfirst), ih hothers]

/-- **A list is read back** from its bytes. -/
theorem parseFileListBytes_fileListBytes {descriptors : List FileDescriptorW} {data : List UInt8}
    (h : fileListBytes descriptors = some data) :
    data ≠ [] ∧ parseFileListBytes data = descriptors := by
  rw [fileListBytes] at h
  split_ifs at h with hfits
  obtain rfl := Option.some.inj h
  refine ⟨fun hnil ↦ ?_, ?_⟩
  · have hlength := congrArg List.length hnil
    rw [List.length_append, length_toBytes, List.length_nil] at hlength
    omega
  · rw [parseFileListBytes, List.take_left' (length_toBytes 4 _),
      List.drop_left' (length_toBytes 4 _), ofBytes_toBytes_of_lt hfits.1,
      descriptorsIn_bytes hfits.2]

theorem length_fileNameUnits (units : List UInt16) : (fileNameUnits units).length = 260 := by
  simp only [fileNameUnits, List.length_append, List.length_replicate, List.length_map,
    List.length_take]
  omega

/-- The descriptors of files can be written. -/
theorem fileListBytes_descriptor (conversions : Conversions) (h : files.length < 2 ^ 32) :
    ∃ data, fileListBytes (files.map (LocalFile.descriptor conversions)) = some data := by
  refine ⟨_, if_pos ⟨by rwa [List.length_map], fun descriptor hdescriptor ↦ ?_⟩⟩
  obtain ⟨file, -, rfl⟩ := List.mem_map.1 hdescriptor
  exact length_fileNameUnits _

end RdpMcp
