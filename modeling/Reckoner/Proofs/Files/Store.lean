import Reckoner.Files.Store

namespace Reckoner.Store

/-!
# What a write changes

A file that is written holds what was written to it, and nothing else in the store is touched.

* `node?_set_self`, `node?_set_of_ne`: what stands where after a node is set.
* `resolve_set`: a path leads where it led, if no directory is replaced on its way.
* `read_of_write`: what is written to a path is read from it.
* `OnlyWrites before after location bytes`: a file at one location is all that was written.
* `write_isOk_iff`, `onlyWrites_of_write`: when a write succeeds, and what it changes.
* `resolve_ne_of_name_ne`: two names in one directory lead to two locations.
-/

/-! ### Setting a node -/

/-- What is found at a location whose entries are replaced. -/
theorem lookup_replace_self {nodes : List (Location × Node)} {location : Location} (node : Node)
    (h : nodes.any (·.1 = location) = true) :
    (nodes.map fun entry =>
      if entry.1 = location then (location, node) else entry).lookup location = some node := by
  induction nodes with
  | nil => simp at h
  | cons entry nodes ih =>
    rw [List.map_cons]
    by_cases hentry : entry.1 = location
    · rw [if_pos hentry]
      exact List.lookup_cons_self
    · have hrest : nodes.any (·.1 = location) = true := by simpa [hentry] using h
      have hne : (location == entry.1) = false := beq_eq_false_iff_ne.2 fun e => hentry e.symm
      rw [if_neg hentry, List.lookup_cons, hne]
      exact ih hrest

/-- What is found elsewhere. -/
theorem lookup_replace_of_ne {location other : Location} (nodes : List (Location × Node))
    (node : Node) (h : other ≠ location) :
    (nodes.map fun entry => if entry.1 = location then (location, node) else entry).lookup other =
      nodes.lookup other := by
  induction nodes with
  | nil => rfl
  | cons entry nodes ih =>
    rw [List.map_cons, List.lookup_cons]
    by_cases hentry : entry.1 = location
    · have hother : (other == entry.1) = false := beq_eq_false_iff_ne.2 (by rw [hentry]; exact h)
      have hself : (other == location) = false := beq_eq_false_iff_ne.2 h
      rw [if_pos hentry, hself, List.lookup_cons, hother]
      exact ih
    · rw [if_neg hentry, List.lookup_cons, ih]

/-- The node that was set stands at its location. -/
theorem node?_set_self {location : Location} (store : Store) (node : Node) (h : location ≠ []) :
    (store.set location node).node? location = some node := by
  unfold node? set
  rw [if_neg h]
  by_cases hany : store.nodes.any (·.1 = location) = true
  · rw [if_pos hany]
    exact lookup_replace_self node hany
  · rw [if_neg hany]
    have hnone : store.nodes.lookup location = none := by
      rw [List.lookup_eq_none_iff]
      intro entry hentry
      rw [bne_iff_ne]
      intro heq
      exact hany (List.any_eq_true.2 ⟨entry, hentry, by simp [heq]⟩)
    show (store.nodes ++ [(location, node)]).lookup location = some node
    rw [List.lookup_append, hnone]
    simp

/-- Elsewhere nothing changes. -/
theorem node?_set_of_ne {location other : Location} (store : Store) (node : Node)
    (h : other ≠ location) : (store.set location node).node? other = store.node? other := by
  unfold node? set
  by_cases hany : store.nodes.any (·.1 = location) = true
  · rw [if_pos hany]
    show (if other = [] then _ else (store.nodes.map _).lookup other) = _
    rw [lookup_replace_of_ne store.nodes node h]
  · rw [if_neg hany]
    show (if other = [] then _ else (store.nodes ++ [(location, node)]).lookup other) = _
    have hself : (other == location) = false := beq_eq_false_iff_ne.2 h
    rw [List.lookup_append, List.lookup_cons, hself, List.lookup_nil, Option.or_none]

/-- The working directory stays. -/
theorem working_set (store : Store) (location : Location) (node : Node) :
    (store.set location node).working = store.working := by
  unfold set
  by_cases hany : store.nodes.any (·.1 = location) = true
  · rw [if_pos hany]
  · rw [if_neg hany]

/-! ### Following paths -/

/-- A component leads on from a directory, if it is not too long. -/
theorem follow_cons_eq_ok_iff {store : Store} {start target : Location} {part : String}
    {rest : List String} :
    store.follow start (part :: rest) = .ok target ↔
      store.node? start = some .directory ∧ part.utf8ByteSize ≤ longestName ∧
        store.follow (if part = ".." then start.dropLast else start ++ [part]) rest =
          .ok target := by
  rw [follow]
  cases hstart : store.node? start with
  | none => simp
  | some found =>
    cases found with
    | file content => simp
    | directory =>
      by_cases hlong : longestName < part.utf8ByteSize
      · simp [hlong, Nat.not_le_of_lt hlong]
      · simp [hlong, Nat.le_of_not_lt hlong]

/-- Components lead where they led, as all on the way but the last are directories, and none of
    these is replaced. -/
theorem follow_set {store : Store} {location : Location} (node : Node)
    (hplace : store.node? location ≠ some .directory) {parts : List String}
    {start target : Location} (h : store.follow start parts = .ok target) :
    (store.set location node).follow start parts = .ok target := by
  induction parts generalizing start with
  | nil => exact h
  | cons part rest ih =>
    obtain ⟨hstart, hlength, hrest⟩ := follow_cons_eq_ok_iff.1 h
    -- The way goes through a directory, and what is replaced is none.
    have hne : start ≠ location := by
      rintro rfl
      exact hplace hstart
    exact follow_cons_eq_ok_iff.2 ⟨by rwa [node?_set_of_ne store node hne], hlength, ih hrest⟩

/-- A path leads where it led, when no directory is replaced. -/
theorem resolve_set {store : Store} {location : Location} (node : Node)
    (hplace : store.node? location ≠ some .directory) {path : PathName} {target : Location}
    (h : store.resolve path = .ok target) :
    (store.set location node).resolve path = .ok target := by
  unfold resolve at h ⊢
  rw [working_set]
  by_cases hnull : path.text.toList.contains '\x00' = true
  · rw [if_pos hnull] at h
    exact absurd h (by simp)
  rw [if_neg hnull] at h ⊢
  by_cases hlong : longestPath < path.text.utf8ByteSize
  · rw [if_pos hlong] at h
    exact absurd h (by simp)
  · rw [if_neg hlong] at h ⊢
    exact follow_set node hplace h

/-- **A write puts a file where its path leads,** and no directory is lost by it. -/
theorem write_eq_ok {store written : Store} {path : PathName} {bytes : List UInt8}
    (h : store.write path bytes = .ok written) :
    ∃ location, store.resolve path = .ok location ∧ store.node? location ≠ some .directory ∧
      written = store.set location (.file (.bytes bytes)) := by
  unfold write at h
  cases hpath : store.resolve path with
  | error e => simp [hpath] at h
  | ok location =>
    rw [hpath] at h
    cases hnode : store.node? location with
    | none =>
      simp only [hnode] at h
      exact ⟨location, rfl, by simp [hnode], (Except.ok.inj h).symm⟩
    | some found =>
      cases found with
      | directory => simp [hnode] at h
      | file content =>
        simp only [hnode] at h
        exact ⟨location, rfl, by simp [hnode], (Except.ok.inj h).symm⟩

/-- **What is written to a path is read from it.** -/
theorem read_of_write {store written : Store} {path : PathName} {bytes : List UInt8}
    (h : store.write path bytes = .ok written) : written.read path = .ok (.bytes bytes) := by
  obtain ⟨location, hpath, hplace, rfl⟩ := write_eq_ok h
  have hne : location ≠ [] := by
    rintro rfl
    exact hplace rfl
  have hnode := node?_set_self store (.file (.bytes bytes)) hne
  unfold read
  simp only [resolve_set _ hplace hpath, hnode]

/-! ### What a write leaves alone -/

/-- A store differs from an earlier one in the bytes at one location, where no directory was. -/
structure OnlyWrites (before after : Store) (location : Location) (bytes : List UInt8) : Prop where
  place : before.node? location ≠ some .directory
  content : after.node? location = some (.file (.bytes bytes))
  elsewhere : ∀ other, other ≠ location → after.node? other = before.node? other
  working : after.working = before.working

/-- A path can be written to if it leads to a place that is no directory, whatever is written. -/
theorem write_isOk_iff {store : Store} {path : PathName} {bytes : List UInt8} :
    (store.write path bytes).isOk = true ↔
      ∃ location, store.resolve path = .ok location ∧ store.node? location ≠ some .directory := by
  unfold write
  cases hpath : store.resolve path with
  | error e => simp [Except.isOk, Except.toBool]
  | ok location =>
    cases hnode : store.node? location with
    | none => simp [hnode, Except.isOk, Except.toBool]
    | some found => cases found <;> simp [hnode, Except.isOk, Except.toBool]

/-- **A write changes the file where its path leads,** and nothing else. -/
theorem onlyWrites_of_write {store written : Store} {path : PathName} {bytes : List UInt8}
    (h : store.write path bytes = .ok written) :
    ∃ location, store.resolve path = .ok location ∧ OnlyWrites store written location bytes := by
  obtain ⟨location, hpath, hplace, rfl⟩ := write_eq_ok h
  have hne : location ≠ [] := by
    rintro rfl
    exact hplace rfl
  exact ⟨location, hpath, hplace, node?_set_self store _ hne,
    fun other hother => node?_set_of_ne store _ hother, working_set store _ _⟩

/-- What is read elsewhere is what was read before. -/
theorem read_of_write_of_ne {store written : Store} {path other : PathName} {bytes : List UInt8}
    {content : Content} (h : store.write path bytes = .ok written)
    (hread : store.read other = .ok content)
    (hne : ∀ location, store.resolve path = .ok location → store.resolve other ≠ .ok location) :
    written.read other = .ok content := by
  obtain ⟨location, hpath, hplace, rfl⟩ := write_eq_ok h
  unfold read at hread ⊢
  cases hother : store.resolve other with
  | error e => simp [hother] at hread
  | ok place =>
    have hplaces : place ≠ location := by
      rintro rfl
      exact hne _ hpath hother
    rw [hother] at hread
    simp only [resolve_set _ hplace hother, node?_set_of_ne store _ hplaces]
    exact hread

/-! ### Two files in one directory -/

/-- The last of several components leads from where the others lead. -/
theorem follow_append {store : Store} {parts : List String} {part : String}
    {start target : Location} (h : store.follow start (parts ++ [part]) = .ok target) :
    ∃ directory, store.follow start parts = .ok directory ∧
      target = if part = ".." then directory.dropLast else directory ++ [part] := by
  induction parts generalizing start with
  | nil =>
    obtain ⟨_, _, hlast⟩ := follow_cons_eq_ok_iff.1 h
    exact ⟨start, rfl, (Except.ok.inj hlast).symm⟩
  | cons first parts ih =>
    obtain ⟨hstart, hlength, hrest⟩ := follow_cons_eq_ok_iff.1 h
    obtain ⟨directory, hdirectory, htarget⟩ := ih hrest
    exact ⟨directory, follow_cons_eq_ok_iff.2 ⟨hstart, hlength, hdirectory⟩, htarget⟩

/-- A path leads where its components do from the root or the working directory. -/
theorem follow_of_resolve {store : Store} {path : PathName} {target : Location}
    (h : store.resolve path = .ok target) :
    store.follow (if path.root = "" then store.working else []) path.parts = .ok target := by
  unfold resolve at h
  split at h
  · cases h
  · split at h
    · cases h
    · exact h

/-- **Two names in one directory** lead to two locations, even if one of them leads back. -/
theorem resolve_ne_of_name_ne {store : Store} {root : String} {directory : List String}
    {name other : String} {location : Location} (hname : name ≠ "..") (hne : name ≠ other)
    (h : store.resolve ⟨root, directory ++ [name]⟩ = .ok location) :
    store.resolve ⟨root, directory ++ [other]⟩ ≠ .ok location := by
  intro hother
  obtain ⟨place, hplace, hlocation⟩ := follow_append (follow_of_resolve h)
  obtain ⟨place', hplace', hlocation'⟩ := follow_append (follow_of_resolve hother)
  obtain rfl : place = place' := Except.ok.inj (hplace.symm.trans hplace')
  rw [hlocation, if_neg hname] at hlocation'
  by_cases hback : other = ".."
  · rw [if_pos hback] at hlocation'
    have hlength := congrArg List.length hlocation'
    rw [List.length_append, List.length_singleton, List.length_dropLast] at hlength
    omega
  · rw [if_neg hback] at hlocation'
    have hnames := List.append_cancel_left hlocation'
    exact hne (List.head_eq_of_cons_eq hnames)

end Reckoner.Store
