import Mathlib.Data.List.Basic

/-!
# Lexical resolution of paths

A path is a list of symbols, and a separator cuts it into components. The path is followed without a
look at the file system: an empty component and a single dot stay where they are, two dots leave the
last name that has been entered, and anything else is entered. Above the root there is nothing;
above the place where a relative path starts, the levels are counted.

The rule for a path that is put together: what is appended behind a separator stays within the path
before it if no component of it is two dots (`within_resolve_append`).
-/

namespace LexicalPath

variable {α : Type*}

/-- The two symbols that mean something in a path. -/
structure Symbols (α : Type*) where
  separator : α
  dot : α

/-- The component that leaves a directory. -/
def Symbols.parent (symbols : Symbols α) : List α :=
  [symbols.dot, symbols.dot]

/-- Where a path leads, from the root or from where it starts: some levels up, and then down. -/
structure Place (α : Type*) where
  absolute : Bool
  ups : ℕ := 0
  names : List (List α) := []
  deriving DecidableEq

/-- A place is another one, or lies below it. -/
structure Within (base place : Place α) : Prop where
  absolute : place.absolute = base.absolute
  ups : place.ups = base.ups
  names : base.names <+: place.names

theorem Within.refl (place : Place α) : Within place place :=
  ⟨rfl, rfl, List.prefix_rfl⟩

theorem Within.trans {p q r : Place α} (hpq : Within p q) (hqr : Within q r) : Within p r :=
  ⟨hqr.absolute.trans hpq.absolute, hqr.ups.trans hpq.ups, hpq.names.trans hqr.names⟩

variable [DecidableEq α] {symbols : Symbols α}

variable (symbols) in
/-- Follow one component. -/
def Place.enter (place : Place α) (component : List α) : Place α :=
  if component = [] ∨ component = [symbols.dot] then place
  else if component = symbols.parent then
    if place.names ≠ [] then { place with names := place.names.dropLast }
    else if place.absolute then place
    else { place with ups := place.ups + 1 }
  else { place with names := place.names ++ [component] }

variable (symbols) in
/-- Follow a path, from the root if it begins with the separator. -/
def resolve (path : List α) : Place α :=
  (path.splitOn symbols.separator).foldl (Place.enter symbols)
    { absolute := path.head? = some symbols.separator }

@[simp]
theorem Place.enter_nil (place : Place α) : place.enter symbols [] = place :=
  if_pos (.inl rfl)

/-- A component other than two dots does not leave. -/
theorem within_enter {component : List α} (h : component ≠ symbols.parent) (place : Place α) :
    Within place (place.enter symbols component) := by
  rw [Place.enter, if_neg h]
  split
  · exact .refl place
  · exact ⟨rfl, rfl, List.prefix_append _ _⟩

theorem within_foldl_enter {components : List (List α)} (h : symbols.parent ∉ components)
    (place : Place α) : Within place (components.foldl (Place.enter symbols) place) := by
  induction components generalizing place with
  | nil => exact .refl place
  | cons component components ih =>
    rw [List.mem_cons, not_or] at h
    exact (within_enter (Ne.symm h.1) place).trans (ih h.2 _)

/-- **A path that is put together** is followed piece by piece. -/
theorem resolve_append {path : List α} (hne : path ≠ []) (rest : List α) :
    resolve symbols (path ++ symbols.separator :: rest) =
      (rest.splitOn symbols.separator).foldl (Place.enter symbols) (resolve symbols path) := by
  rw [resolve, resolve, List.splitOn_append_cons_self, List.foldl_append,
    List.head?_append_of_ne_nil path hne]

/-- A path that begins with the separator is followed from the root. -/
theorem resolve_cons_separator (rest : List α) :
    resolve symbols (symbols.separator :: rest) =
      (rest.splitOn symbols.separator).foldl (Place.enter symbols) { absolute := true } := by
  have hsplit : (symbols.separator :: rest).splitOn symbols.separator =
      [] :: rest.splitOn symbols.separator :=
    List.splitOn_append_cons_self [] rest
  rw [resolve, hsplit, List.foldl_cons, Place.enter_nil]
  simp

/-- **What is appended stays within the path before it** if no component of it is two dots. -/
theorem within_resolve_append {path rest : List α} (hne : path ≠ [])
    (h : symbols.parent ∉ rest.splitOn symbols.separator) :
    Within (resolve symbols path) (resolve symbols (path ++ symbols.separator :: rest)) := by
  rw [resolve_append hne]
  exact within_foldl_enter h _

/-- **Behind the separator alone** it stays within the root. -/
theorem within_resolve_cons_separator {rest : List α}
    (h : symbols.parent ∉ rest.splitOn symbols.separator) :
    Within { absolute := true } (resolve symbols (symbols.separator :: rest)) := by
  rw [resolve_cons_separator]
  exact within_foldl_enter h _

end LexicalPath
