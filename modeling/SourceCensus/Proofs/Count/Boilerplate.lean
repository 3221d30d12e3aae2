import SourceCensus.Proofs.Count.Order
import SourceCensus.Proofs.Line.Lockstep

/-!
# What stands between the parts of an accessor

An accessor of three lines may be left out of a count because it is boilerplate: a signature, one statement
and a closing brace, and nothing else that counts.  The search makes sure of the three parts, and looks at
candidates only.  Whatever is no candidate may stand between the parts.  Blank lines and comments are not
counted, so they do no harm.  A line of a text block is counted and is no candidate.  A method that passes a
text block to a call and then returns a field is therefore taken for a getter (`accessor_around_text`), and
its other lines stay in the count.

So an accessor is pure exactly where no counted line of a text block stands between its parts
(`pureBetween_iff`).
-/

set_option autoImplicit false

namespace SourceCensus

open Accessor (Candidate)

namespace Survey

def accessors (lang : Language) (s : Survey) : List (List Candidate) :=
  Accessor.windows lang.accessorShapes lang.accessorClose s.candidates

/-- Of the lines between the lines `a` and `c`, both scans count none but the line `b`. -/
def PureBetween (s : Survey) (a b c : Nat) : Prop :=
  ∀ i e, a < i → i < c → i ≠ b → s[i]? = some e → e.shared = false

/-- Of the lines between the lines `a` and `c`, both scans count none that belongs to a text block. -/
def TextFreeBetween (s : Survey) (a c : Nat) : Prop :=
  ∀ i e, a < i → i < c → s[i]? = some e → e.shared = true → e.stripping.inText = false

variable {lang : Language} {s : Survey} {x y z : Candidate}

theorem accessorLines_eq_flatten (lang : Language) (s : Survey) :
    s.accessorLines lang = ((s.accessors lang).flatten).map (·.1) :=
  Accessor.positions_eq_flatten s.candidates

/-- A counted line between the parts of an accessor is one of them or belongs to a text block. -/
theorem inText_of_between (h : [x, y, z] ∈ s.accessors lang) {i : Nat} {e : Surveyed} (hx : x.1 < i)
    (hz : i < z.1) (hy : i ≠ y.1) (he : s[i]? = some e) (hshared : e.shared = true) :
    e.stripping.inText = true := by
  by_contra htext
  rw [Bool.not_eq_true] at htext
  -- Counted and in no text block, so a candidate; and the list of these has no room for it.
  have hcandidate : (i, e.line) ∈ s.candidates :=
    mem_candidates.mpr ⟨e, he, by simp [Surveyed.isCandidate, hshared, htext], rfl⟩
  have heq : (i, e.line) = y :=
    eq_of_between (Accessor.infix_of_mem_windows h) hcandidate hx hz
  exact hy (congrArg Prod.fst heq)

/-- The parts of an accessor of three lines stand in order, are left out of the count, and are the
signature, the body and the closing line of one shape.  Nothing else between them is counted exactly when no
counted line between them belongs to a text block. -/
theorem pureBetween_iff (m : Markers) (lines : List (List Char))
    (h : [x, y, z] ∈ (ofLines m lines).accessors lang) :
    (x.1 < y.1 ∧ y.1 < z.1) ∧
    (∀ part ∈ [x, y, z], part.1 ∈ (ofLines m lines).accessorLines lang) ∧
    (∃ shape ∈ lang.accessorShapes, shape.isSignature x.2 = true ∧ shape.isBody y.2 = true ∧
      lang.accessorClose.fitsLine z.2 = true) ∧
    ((ofLines m lines).PureBetween x.1 y.1 z.1 ↔ (ofLines m lines).TextFreeBetween x.1 z.1) := by
  have hinfix : [x, y, z] <:+: (ofLines m lines).candidates := Accessor.infix_of_mem_windows h
  refine ⟨parts_ascend hinfix, ?_, Accessor.parts_of_mem_windows h, ?_, ?_⟩
  · intro part hpart
    rw [accessorLines_eq_flatten]
    exact List.mem_map_of_mem (List.mem_flatten.mpr ⟨_, h, hpart⟩)
  · intro hpure i e hx hz he hshared
    by_cases hy : i = y.1
    · -- The body is a candidate, and these lie in no text block.
      have hmem : y ∈ (ofLines m lines).candidates := hinfix.subset (by simp)
      obtain ⟨e', he', hcandidate, -⟩ := mem_candidates.mp hmem
      rw [← hy, he] at he'
      obtain rfl := Option.some.inj he'
      simpa [Surveyed.isCandidate, hshared] using hcandidate
    · rw [hpure i e hx hz hy he] at hshared
      cases hshared
  · intro hfree i e hx hz hy he
    by_contra hshared
    rw [Bool.not_eq_false] at hshared
    have htext := inText_of_between h hx hz hy he hshared
    rw [hfree i e hx hz he hshared] at htext
    cases htext

/-- A blank line and a comment between the parts leave a getter pure. -/
theorem pureBetween_spaced_getter :
    let s := ofLines .java (["int getX() \x7b", "", "// why", "return x;", "\x7d"].map String.toList)
    [(0, "int getX() \x7b".toList), (3, "return x;".toList), (4, "\x7d".toList)] ∈ s.accessors .java ∧
      s.PureBetween 0 3 4 := by
  intro s
  have hmem : [(0, "int getX() \x7b".toList), (3, "return x;".toList), (4, "\x7d".toList)]
      ∈ s.accessors .java := by decide +kernel
  have hfree : ∀ e ∈ s, e.stripping.inText = false := by decide +kernel
  refine ⟨hmem, (pureBetween_iff .java _ hmem).2.2.2.mpr ?_⟩
  intro i e _ _ he _
  exact hfree e (List.mem_of_getElem? he)

/-- A method that logs a text block before it returns a field is left out of the count as a getter, with two
counted lines between its parts. -/
theorem accessor_around_text :
    ∃ x y z,
      let s := ofLines .java (["String getName() \x7b", "log(\"\"\"", "hello\"\"\");", "return name;",
        "\x7d"].map String.toList)
      Markers.ofLanguage .java = .ok .java ∧ [x, y, z] ∈ s.accessors .java ∧
        ¬ s.PureBetween x.1 y.1 z.1 := by
  refine ⟨(0, "String getName() \x7b".toList), (3, "return name;".toList), (4, "\x7d".toList),
    Markers.ofLanguage_java, by decide +kernel, fun hpure => ?_⟩
  have hcounted := hpure 1 _ (by decide) (by decide) (by decide) rfl
  exact absurd hcounted (by decide +kernel)

end Survey

end SourceCensus
