/-!
# Paths

A path is lexical: a root and a list of components.  Reading a path drops empty components and `.`, but
keeps `..`, because what `..` means depends on links.  Exactly two leading slashes are a root of their own.

* `Path.ofString`, `Path.render`: the written form; an empty relative path is written `.`;
* `Path.join`: a path behind another one, which starts anew when it has a root;
* `Path.below?`: a path as seen from one that it lies under;
* `Path.name`: the last component.
-/

set_option autoImplicit false

namespace SourceCensus

/-- What a path starts from. -/
inductive PathRoot where
  | relative
  | absolute
  /-- Two slashes. -/
  | doubled
  deriving Repr, DecidableEq

/-- The written form of a root. -/
def PathRoot.render : PathRoot → String
  | relative => ""
  | absolute => "/"
  | doubled => "//"

/-- A lexical path. -/
structure Path where
  root : PathRoot
  parts : List String
  deriving Repr, DecidableEq

namespace Path

/-- The root that leading slashes write. -/
def rootOf : List Char → PathRoot
  | '/' :: '/' :: '/' :: _ => .absolute
  | '/' :: '/' :: _ => .doubled
  | '/' :: _ => .absolute
  | _ => .relative

/-- Whether a component is kept when a path is read. -/
def isPart (component : List Char) : Bool := !component.isEmpty && component != ['.']

/-- The components that a text writes. -/
def partsOf (s : List Char) : List String :=
  ((s.splitOn '/').filter isPart).map String.ofList

/-- The path that a text writes. -/
def ofString (s : String) : Path := ⟨rootOf s.toList, partsOf s.toList⟩

/-- The components with slashes between them. -/
def renderParts (parts : List String) : String := "/".intercalate parts

/-- The written form, without a `.` for the empty relative path. -/
def renderBare (p : Path) : String := p.root.render ++ renderParts p.parts

/-- The written form. -/
def render (p : Path) : String :=
  match p.root, p.parts with
  | .relative, [] => "."
  | _, _ => p.renderBare

/-- The last component; a path without components has the empty name. -/
def name (p : Path) : String := p.parts.getLast?.getD ""

/-- The path `q` as seen from `p`, if it has no root of its own. -/
def append (p q : Path) : Path :=
  match q.root with
  | .relative => ⟨p.root, p.parts ++ q.parts⟩
  | _ => q

/-- The path behind `p` that the text writes. -/
def join (p : Path) (s : String) : Path := p.append (ofString s)

/-- The path of the entry `name` of the directory `p`. -/
def child (p : Path) (name : String) : Path := ⟨p.root, p.parts ++ [name]⟩

/-- The path as seen from `base`, when it lies under it. -/
def below? (p base : Path) : Option Path :=
  if p.root = base.root && base.parts.isPrefixOf p.parts then
    some ⟨.relative, p.parts.drop base.parts.length⟩
  else none

/-- The path as seen from `base`, or as it is when it does not lie under it. -/
def belowOrSelf (p base : Path) : Path := (p.below? base).getD p

@[simp] theorem child_parts (p : Path) (name : String) : (p.child name).parts = p.parts ++ [name] :=
  rfl

@[simp] theorem child_root (p : Path) (name : String) : (p.child name).root = p.root := rfl

/-- What is appended to a path is seen from it again. -/
theorem below?_append_parts (p : Path) (parts : List String) :
    (Path.mk p.root (p.parts ++ parts)).below? p = some ⟨.relative, parts⟩ := by
  simp [below?]

/-- A path that is seen from `base` is `base` with the rest behind it. -/
theorem eq_of_below? {p base q : Path} (h : p.below? base = some q) :
    q.root = .relative ∧ p = ⟨base.root, base.parts ++ q.parts⟩ := by
  unfold below? at h
  split at h
  · next hc =>
    simp only [Bool.and_eq_true, decide_eq_true_eq, List.isPrefixOf_iff_prefix] at hc
    obtain ⟨hroot, t, ht⟩ := hc
    cases p with
    | mk root parts =>
      simp only at hroot ht
      subst hroot
      subst ht
      simp only [List.drop_left, Option.some.injEq] at h
      subst h
      exact ⟨rfl, rfl⟩
  · simp at h

end Path

end SourceCensus
