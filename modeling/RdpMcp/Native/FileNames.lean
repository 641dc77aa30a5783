import RdpMcp.Foundations.LexicalPath
import RdpMcp.Native.CliprdrFile

/-!
# The names of downloaded files

A remote file is saved below the download directory under its own name, which the server chooses.
Two functions make the name harmless: backslashes become slashes, and then the slashes in front are
stripped and every component `..` becomes `__`. The second works on the bytes, with a look at one
byte behind and two ahead; that it works on **components** is `splitOn_replaceDots`, by recursion
over the components.

The path of the file is the directory, a slash and the name, so that an empty directory stands for
the root (`downloadDirectory`), and not for the working directory.
-/

open LexicalPath

namespace RdpMcp

/-- The slash and the dot. -/
def pathSymbols : Symbols UInt8 :=
  ⟨0x2f, 0x2e⟩

/-- The name that a remote file is saved under. -/
def savedName (name : Path) : Path :=
  sanitizeFilename (normalizePathSeparators name)

/-- What becomes of a component. -/
def renameParent (component : Path) : Path :=
  if component = pathSymbols.parent then [0x5f, 0x5f] else component

/-- Where downloaded files go. -/
def downloadDirectory (tempDir : Path) : Place UInt8 :=
  if tempDir = [] then { absolute := true } else resolve pathSymbols tempDir

/-! ### The loop over the bytes -/

/-- Two dots and a separator, or the end, are ahead. -/
def ParentAhead (path : Path) : Prop :=
  ∃ rest, path = 0x2e :: 0x2e :: rest ∧ rest.head?.all isSeparator = true

theorem replaceDots_parent {rest : Path} (h : rest.head?.all isSeparator = true) :
    replaceDots true (0x2e :: 0x2e :: rest) = 0x5f :: 0x5f :: replaceDots false rest := by
  rw [replaceDots, h]
  rfl

/-- Any other byte stays. -/
theorem replaceDots_cons {afterSeparator : Bool} {b : UInt8} {rest : Path}
    (h : afterSeparator = true → ¬ParentAhead (b :: rest)) :
    replaceDots afterSeparator (b :: rest) = b :: replaceDots (isSeparator b) rest := by
  rw [replaceDots.eq_def]
  split
  case h_1 path rest' hpath =>
    obtain ⟨rfl, rfl⟩ := List.cons.inj hpath
    refine if_neg fun hparent ↦ ?_
    rw [Bool.and_eq_true] at hparent
    exact h hparent.1 ⟨rest', rfl, hparent.2⟩
  case h_2 path b' rest' _ hpath =>
    obtain ⟨rfl, rfl⟩ := List.cons.inj hpath
    rfl
  case h_3 hpath => cases hpath

/-- A separator stays, and what is behind it is looked at. -/
theorem replaceDots_separator {afterSeparator : Bool} {b : UInt8} {rest : Path}
    (hb : isSeparator b = true) :
    replaceDots afterSeparator (b :: rest) = b :: replaceDots true rest := by
  rw [replaceDots_cons, hb]
  rintro - ⟨rest', heq, -⟩
  obtain ⟨rfl, -⟩ := List.cons.inj heq
  cases hb

/-! ### Components -/

/-- No separator occurs. -/
def SeparatorFree (path : Path) : Prop :=
  ∀ b ∈ path, isSeparator b = false

theorem separatorFree_of_not_mem {path : Path} (hslash : 0x2f ∉ path) (hbackslash : 0x5c ∉ path) :
    SeparatorFree path := by
  intro b hb
  rw [isSeparator, Bool.or_eq_false_iff, beq_eq_false_iff_ne, beq_eq_false_iff_ne]
  exact ⟨ne_of_mem_of_not_mem hb hslash, ne_of_mem_of_not_mem hb hbackslash⟩

/-- The rest of a component stays. -/
theorem replaceDots_append {component : Path} (h : SeparatorFree component) (rest : Path) :
    replaceDots false (component ++ rest) = component ++ replaceDots false rest := by
  induction component with
  | nil => rfl
  | cons b component ih =>
    rw [SeparatorFree, List.forall_mem_cons] at h
    have hcons : replaceDots false (b :: (component ++ rest)) =
        b :: replaceDots (isSeparator b) (component ++ rest) :=
      replaceDots_cons fun hfalse ↦ absurd hfalse Bool.false_ne_true
    rw [List.cons_append, hcons, h.1, ih h.2, List.cons_append]

/-- Ahead of a component with more than two dots, or with others, there is no parent. -/
theorem not_parentAhead {b : UInt8} {component rest : Path} (h : SeparatorFree (b :: component))
    (hne : b :: component ≠ pathSymbols.parent) (hrest : rest.head?.all isSeparator = true) :
    ¬ParentAhead (b :: (component ++ rest)) := by
  rintro ⟨rest', hpath, hrest'⟩
  obtain ⟨rfl, hbehind⟩ := List.cons.inj hpath
  cases component with
  | nil =>
    rw [List.nil_append] at hbehind
    rw [hbehind] at hrest
    cases hrest
  | cons b' component =>
    obtain ⟨rfl, rfl⟩ := List.cons.inj hbehind
    cases component with
    | nil => exact hne rfl
    | cons b'' component =>
      have hseparator : isSeparator b'' = true := hrest'
      have hfree := h b'' (by simp)
      cases hfree.symm.trans hseparator

/-- **One component**, and what is behind it. -/
theorem replaceDots_component {component rest : Path} (h : SeparatorFree component)
    (hrest : rest.head?.all isSeparator = true) :
    replaceDots true (component ++ rest) = renameParent component ++ replaceDots false rest := by
  rw [renameParent]
  split
  case isTrue hparent =>
    rw [hparent]
    exact replaceDots_parent hrest
  case isFalse hne =>
    cases component with
    | nil =>
      cases rest with
      | nil => rfl
      | cons b rest =>
        have hb : isSeparator b = true := hrest
        rw [List.nil_append, List.nil_append, replaceDots_separator hb, replaceDots_separator hb]
    | cons b component =>
      rw [List.cons_append, replaceDots_cons fun _ ↦ not_parentAhead h hne hrest]
      rw [SeparatorFree, List.forall_mem_cons] at h
      rw [h.1, replaceDots_append h.2, List.cons_append]

theorem not_mem_renameParent {component : Path} (h : 0x2f ∉ component) :
    0x2f ∉ renameParent component := by
  rw [renameParent]
  split
  · decide
  · exact h

/-- **The loop renames the components.** -/
theorem splitOn_replaceDots (path : Path) (hbackslash : 0x5c ∉ path) :
    (replaceDots true path).splitOn 0x2f = (path.splitOn 0x2f).map renameParent := by
  by_cases hslash : 0x2f ∈ path
  · obtain ⟨component, rest, rfl, hcomponent⟩ := List.eq_append_cons_of_mem hslash
    rw [List.mem_append, List.mem_cons, not_or, not_or] at hbackslash
    rw [replaceDots_component (separatorFree_of_not_mem hcomponent hbackslash.1) (by rfl),
      replaceDots_separator (by rfl), List.splitOn_append_cons_self_of_not_mem hcomponent,
      List.splitOn_append_cons_self_of_not_mem (not_mem_renameParent hcomponent),
      splitOn_replaceDots rest hbackslash.2.2, List.map_cons]
  · have hloop : replaceDots true (path ++ []) = renameParent path ++ replaceDots false [] :=
      replaceDots_component (separatorFree_of_not_mem hslash hbackslash) rfl
    rw [List.append_nil] at hloop
    rw [hloop, replaceDots, List.append_nil, List.splitOn_eq_singleton hslash,
      List.splitOn_eq_singleton (not_mem_renameParent hslash), List.map_singleton]
  termination_by path.length
  decreasing_by
    subst_vars
    rw [List.length_append, List.length_cons]
    omega

/-! ### Saved names -/

theorem not_mem_normalizePathSeparators (path : Path) : 0x5c ∉ normalizePathSeparators path := by
  intro hmem
  obtain ⟨b, -, hb⟩ := List.mem_map.1 hmem
  split at hb
  case isTrue => cases hb
  case isFalse hne => exact hne hb

theorem not_mem_of_not_mem_dropWhile {path : Path} (h : 0x5c ∉ path) :
    0x5c ∉ path.dropWhile isSeparator :=
  fun hmem ↦ h ((List.dropWhile_sublist _).mem hmem)

/-- The components of a saved name. -/
theorem splitOn_savedName (name : Path) :
    (savedName name).splitOn 0x2f =
      (((normalizePathSeparators name).dropWhile isSeparator).splitOn 0x2f).map renameParent :=
  splitOn_replaceDots _ (not_mem_of_not_mem_dropWhile (not_mem_normalizePathSeparators name))

theorem renameParent_ne_parent (component : Path) :
    renameParent component ≠ pathSymbols.parent := by
  rw [renameParent]
  split
  · decide
  · assumption

theorem parent_not_mem_savedName (name : Path) :
    pathSymbols.parent ∉ (savedName name).splitOn 0x2f := by
  rw [splitOn_savedName]
  intro hmem
  obtain ⟨component, -, hcomponent⟩ := List.mem_map.1 hmem
  exact renameParent_ne_parent component hcomponent

/-- **Nothing is put in front of a name.** -/
theorem head?_replaceDots {path : Path} (h : ∀ b ∈ path.head?, isSeparator b = false) :
    ∀ b ∈ (replaceDots true path).head?, isSeparator b = false := by
  cases path with
  | nil => exact nofun
  | cons b path =>
    intro b' hb'
    by_cases hparent : ParentAhead (b :: path)
    · obtain ⟨rest, heq, hrest⟩ := hparent
      rw [heq, replaceDots_parent hrest] at hb'
      obtain rfl := Option.some.inj hb'
      rfl
    · rw [replaceDots_cons fun _ ↦ hparent] at hb'
      exact h b' hb'

theorem head?_dropWhile_isSeparator (path : Path) :
    ∀ b ∈ (path.dropWhile isSeparator).head?, isSeparator b = false := by
  intro b hb
  have hnot := List.head?_dropWhile_not isSeparator path
  rw [hb] at hnot
  simpa using hnot

theorem isSeparator_head?_savedName (name : Path) :
    ∀ b ∈ (savedName name).head?, isSeparator b = false :=
  head?_replaceDots (head?_dropWhile_isSeparator _)

theorem renameParent_renameParent (component : Path) :
    renameParent (renameParent component) = renameParent component :=
  if_neg (renameParent_ne_parent component)

/-- The loop writes nothing but underscores. -/
theorem mem_replaceDots {afterSeparator : Bool} {path : Path} {b : UInt8}
    (hb : b ∈ replaceDots afterSeparator path) : b ∈ path ∨ b = 0x5f := by
  fun_induction replaceDots afterSeparator path with
  | case1 afterSeparator rest hparent ih =>
    rcases List.mem_cons.1 hb with rfl | hb
    · exact .inr rfl
    rcases List.mem_cons.1 hb with rfl | hb
    · exact .inr rfl
    · exact (ih hb).imp_left fun hmem ↦ List.mem_cons_of_mem _ (List.mem_cons_of_mem _ hmem)
  | case2 afterSeparator rest hparent ih =>
    rcases List.mem_cons.1 hb with rfl | hb
    · exact .inl List.mem_cons_self
    · exact (ih hb).imp_left (List.mem_cons_of_mem _)
  | case3 afterSeparator b' rest hparent ih =>
    rcases List.mem_cons.1 hb with rfl | hb
    · exact .inl List.mem_cons_self
    · exact (ih hb).imp_left (List.mem_cons_of_mem _)
  | case4 => cases hb

theorem not_mem_savedName (name : Path) : 0x5c ∉ savedName name := by
  intro hmem
  rcases mem_replaceDots hmem with hmem | hfalse
  · exact not_mem_normalizePathSeparators name ((List.dropWhile_sublist _).mem hmem)
  · cases hfalse

/-- **Sanitizing again changes nothing.** -/
theorem sanitizeFilename_savedName (name : Path) :
    sanitizeFilename (savedName name) = savedName name := by
  have hstripped : (savedName name).dropWhile isSeparator = savedName name := by
    cases hname : savedName name with
    | nil => rfl
    | cons b rest =>
      have hb := isSeparator_head?_savedName name b (by rw [hname]; rfl)
      rw [List.dropWhile_cons_of_neg (by rw [hb]; exact Bool.false_ne_true)]
  have hcomponents : (replaceDots true (savedName name)).splitOn 0x2f =
      (savedName name).splitOn 0x2f := by
    rw [splitOn_replaceDots _ (not_mem_savedName name), splitOn_savedName, List.map_map]
    exact congrArg (List.map · _) (funext renameParent_renameParent)
  calc sanitizeFilename (savedName name)
      = replaceDots true (savedName name) := by rw [sanitizeFilename, hstripped]
    _ = [0x2f].intercalate ((savedName name).splitOn 0x2f) := by
      rw [← hcomponents, List.intercalate_splitOn]
    _ = savedName name := List.intercalate_splitOn 0x2f

/-! ### Paths -/

/-- **A downloaded file stays within the download directory.** -/
theorem within_tempPath (tempDir name : Path) :
    Within (downloadDirectory tempDir)
      (resolve pathSymbols (tempDir ++ 0x2f :: savedName name)) := by
  rw [downloadDirectory]
  split
  case isTrue hempty =>
    rw [hempty]
    exact within_resolve_cons_separator (parent_not_mem_savedName name)
  case isFalse hne => exact within_resolve_append hne (parent_not_mem_savedName name)

/-- So does every file of a download. -/
theorem within_newDownloads (tempDir : Path) (descriptors : List FileDescriptor) :
    ∀ entry ∈ CliprdrFile.newDownloads tempDir descriptors,
      Within (downloadDirectory tempDir) (resolve pathSymbols entry.tempPath) := by
  intro entry hentry
  obtain ⟨i, hlt, rfl⟩ := List.mem_mapIdx.1 hentry
  exact within_tempPath tempDir _

/-- **What a saved name is**: the components of the name as it was sent, behind the separators in
front, with `__` for `..`. It is harmless, and it stays within the download directory, which is the
root if it is empty. -/
theorem savedName_contained (tempDir name : Path) :
    (∀ b ∈ (savedName name).head?, isSeparator b = false) ∧
      pathSymbols.parent ∉ (savedName name).splitOn 0x2f ∧
      (savedName name).splitOn 0x2f =
        (((normalizePathSeparators name).dropWhile isSeparator).splitOn 0x2f).map renameParent ∧
      sanitizeFilename (savedName name) = savedName name ∧
      Within (downloadDirectory tempDir)
        (resolve pathSymbols (tempDir ++ 0x2f :: savedName name)) :=
  ⟨isSeparator_head?_savedName name, parent_not_mem_savedName name, splitOn_savedName name,
    sanitizeFilename_savedName name, within_tempPath tempDir name⟩

/-- **With an empty directory** the file `x` is saved in the root, which is not where an empty path
leads. -/
theorem savedName_emptyDirectory :
    [] ++ 0x2f :: savedName [0x78] = [0x2f, 0x78] ∧
      ¬Within (resolve pathSymbols []) (resolve pathSymbols ([] ++ 0x2f :: savedName [0x78])) := by
  refine ⟨by decide, fun h ↦ ?_⟩
  exact absurd h.absolute (by decide)

end RdpMcp
