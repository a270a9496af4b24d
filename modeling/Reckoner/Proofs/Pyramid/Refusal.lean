import Reckoner.Proofs.Pyramid.Placing
import Reckoner.Proofs.Value.Kinds

namespace Reckoner.Pyramid

/-!
# Which lists are refused

A list is refused if it cannot be sorted, and if it can then for its number of elements.  Two
elements or more are sorted if they are all numbers or all texts; a single one is a pyramid, whatever
it is.  Nothing else stops the building, and the list itself is left as it was.

* `Mixed elements`: what cannot be sorted.
* `Triangular count`: how many elements a pyramid can have.
* `ofList_cases`: the three outcomes for a list.
* `buildAt_verdict`: the outcomes for what is in memory.
-/

/-- Two elements or more that are neither all numbers nor all texts. -/
def Mixed (elements : List Value) : Prop :=
  2 ≤ elements.length ∧ (¬ ∀ v ∈ elements, v.kind? = some .number) ∧
    ¬ ∀ v ∈ elements, v.kind? = some .text

/-- A pyramid of at least one row has so many elements. -/
def Triangular (count : Nat) : Prop := ∃ height, 1 ≤ height ∧ triangular height = count

/-- Being of one kind is being numbers or being texts. -/
theorem exists_alike_iff {elements : List Value} :
    (∃ k, Sorting.Alike Value.kind? k elements) ↔
      (∀ v ∈ elements, v.kind? = some .number) ∨ ∀ v ∈ elements, v.kind? = some .text := by
  constructor
  · rintro ⟨k, halike⟩
    cases k with
    | number => exact .inl halike
    | text => exact .inr halike
  · rintro (hnumbers | htexts)
    · exact ⟨.number, hnumbers⟩
    · exact ⟨.text, htexts⟩

/-- **The sort refuses what is mixed,** and loses nothing of what is not. -/
theorem sort?_cases {elements : List Value} (hflat : ∀ v ∈ elements, v.isFlat = true) :
    (Mixed elements ∧ Sorting.sort? Value.less? elements = none) ∨
    (¬ Mixed elements ∧ ∃ sorted, Sorting.sort? Value.less? elements = some sorted ∧
      sorted.Perm elements) := by
  rcases Sorting.sort?_cases Value.compares_kinds hflat with
    ⟨sorted, hsort, hperm, hkind⟩ | ⟨hnone, htwo, hkind⟩
  · refine .inr ⟨?_, sorted, hsort, hperm⟩
    rintro ⟨htwo, hnumbers, htexts⟩
    rcases hkind with hshort | halike
    · omega
    · exact (exists_alike_iff.1 halike).elim hnumbers htexts
  · rw [exists_alike_iff, not_or] at hkind
    exact .inl ⟨⟨htwo, hkind.1, hkind.2⟩, hnone⟩

/-- **The three outcomes** for a list without lists in it. -/
theorem ofList_cases {elements : List Value} (hflat : ∀ v ∈ elements, v.isFlat = true) :
    (Mixed elements ∧ ofList elements = .error .unsortable) ∨
    (¬ Mixed elements ∧ ¬ Triangular elements.length ∧
      ofList elements = .error (.unsuitableSize elements.length)) ∨
    (¬ Mixed elements ∧ Triangular elements.length ∧ ∃ height sorted,
      sorted.Perm elements ∧ ofList elements = .ok (rows height sorted) ∧
      IsPyramid height sorted (rows height sorted)) := by
  rcases sort?_cases hflat with ⟨hmixed, hnone⟩ | ⟨hmixed, sorted, hsort, hperm⟩
  · exact .inl ⟨hmixed, by simp only [ofList, hnone]⟩
  refine .inr ?_
  simp only [ofList, hsort]
  -- The copy has as many elements as the list.
  rw [hperm.length_eq]
  cases hheight : height? elements.length with
  | none =>
    refine .inl ⟨hmixed, ?_, rfl⟩
    rintro ⟨height, -, hcount⟩
    rw [height?_eq_some_iff.2 hcount] at hheight
    cases hheight
  | some height =>
    cases height with
    | zero =>
      refine .inl ⟨hmixed, ?_, rfl⟩
      rintro ⟨height, hpos, hcount⟩
      rw [height?_eq_some_iff.2 hcount] at hheight
      obtain rfl : height = 0 := Option.some.inj hheight
      omega
    | succ height =>
      have hcount : triangular (height + 1) = elements.length := height?_eq_some_iff.1 hheight
      refine .inr ⟨hmixed, ⟨height + 1, Nat.le_add_left 1 height, hcount⟩, height + 1, sorted, hperm,
        rfl, isPyramid_rows ?_⟩
      rw [hperm.length_eq, hcount]

/-- **What is refused, and why.**  Nothing at all is refused.  A list without lists in it is refused
    as unsortable if and only if it is mixed, and for its number of elements if and only if it is not
    mixed and no pyramid of at least one row has so many; otherwise the memory shows a pyramid of its
    elements.  The building is not stopped by anything else; and in every case the lists that were in
    memory are still there, the given one among them. -/
theorem buildAt_verdict (m : Memory) (input : Option Nat) :
    let after := (buildAt m input).1
    let outcome := (buildAt m input).2
    m.Extends after ∧
    (input.bind m.list? = none → outcome = .error (.refused .missing)) ∧
    ∀ elements, input.bind m.list? = some elements → (∀ v ∈ elements, v.isFlat = true) →
      (outcome = .error (.refused .unsortable) ↔ Mixed elements) ∧
      (∀ count, outcome = .error (.refused (.unsuitableSize count)) ↔
        ¬ Mixed elements ∧ ¬ Triangular elements.length ∧ count = elements.length) ∧
      (outcome.isOk = true ↔ ¬ Mixed elements ∧ Triangular elements.length) ∧
      (∀ stop, outcome = .error stop →
        stop = .refused .unsortable ∨ stop = .refused (.unsuitableSize elements.length)) ∧
      ∀ addresses, outcome = .ok addresses → ∃ height sorted rows, sorted.Perm elements ∧
        IsPyramid height sorted rows ∧ addresses.map after.list? = rows.map some := by
  intro after outcome
  cases hinput : input.bind m.list? with
  | none =>
    have hbuild : buildAt m input = (m, .error (.refused .missing)) := by
      simp only [buildAt, hinput]
    refine ⟨?_, fun _ => congrArg Prod.snd hbuild, ?_⟩
    · show m.Extends (buildAt m input).1
      rw [hbuild]
      exact .refl m
    · rintro elements ⟨⟩
  | some elements =>
    obtain ⟨hextends, hshows⟩ := buildAt_shows hinput
    refine ⟨hextends, by rintro ⟨⟩, ?_⟩
    rintro _ ⟨rfl⟩ hflat
    rcases ofList_cases hflat with ⟨hmixed, hlist⟩ | ⟨hmixed, hcount, hlist⟩ |
      ⟨hmixed, hcount, height, sorted, hperm, hlist, hpyramid⟩
    · rw [hlist] at hshows
      have houtcome : outcome = .error (.refused .unsortable) := hshows
      simp [houtcome, hmixed, Except.isOk, Except.toBool]
    · rw [hlist] at hshows
      have houtcome : outcome = .error (.refused (.unsuitableSize elements.length)) := hshows
      simp [houtcome, hmixed, hcount, Except.isOk, Except.toBool, eq_comm]
    · rw [hlist] at hshows
      obtain ⟨addresses, haddresses, hshown⟩ := hshows
      have houtcome : outcome = .ok addresses := haddresses
      refine ⟨by simp [houtcome, hmixed], by simp [houtcome, hcount], ?_, by simp [houtcome], ?_⟩
      · simp [houtcome, hmixed, hcount, Except.isOk, Except.toBool]
      · intro others hothers
        obtain rfl : addresses = others := Except.ok.inj (houtcome.symm.trans hothers)
        exact ⟨height, sorted, rows height sorted, hperm, hpyramid, hshown⟩

/-- A text behind two numbers: the size would do, but the list is refused, and it is still there with
    its numbers out of order. -/
theorem buildAt_verdict_mixed :
    let elements : List Value := [.integer 2, .integer 1, .text "a"]
    let m : Memory := ⟨[elements]⟩
    Triangular elements.length ∧ (buildAt m (some 0)).2 = .error (.refused .unsortable) ∧
      (buildAt m (some 0)).1.list? 0 = some elements := by
  intro elements m
  obtain ⟨hextends, -, hverdict⟩ := buildAt_verdict m (some 0)
  have hflat : ∀ v ∈ elements, v.isFlat = true := by simp [elements, Value.isFlat]
  have hmixed : Mixed elements := by simp [elements, Mixed, Value.kind?]
  exact ⟨⟨2, by decide, rfl⟩, (hverdict elements rfl hflat).1.2 hmixed, hextends 0 elements rfl⟩

end Reckoner.Pyramid
