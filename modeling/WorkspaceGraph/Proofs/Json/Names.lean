import WorkspaceGraph.Json.Reader
/-!
Names in records. However often a name is repeated in a text, the records that are read from it have
distinct names.
-/

namespace WorkspaceGraph.Json

def DistinctNames (fields : List (String × Json)) : Prop :=
  fields.Pairwise fun left right => left.1 ≠ right.1

inductive Distinct : Json → Prop
  | null : Distinct null
  | bool (value : Bool) : Distinct (bool value)
  | int (value : Int) : Distinct (int value)
  | real (value : Binary64) : Distinct (real value)
  | text (value : String) : Distinct (text value)
  | list (items : List Json) (each : ∀ item ∈ items, Distinct item) : Distinct (list items)
  | record (fields : List (String × Json)) (names : DistinctNames fields)
      (each : ∀ field ∈ fields, Distinct field.2) : Distinct (record fields)

/-! ## Fields -/

variable {name : String} {value : Json} {fields : List (String × Json)}

theorem mem_of_lookup (found : lookup name fields = some value) : (name, value) ∈ fields := by
  induction fields with
  | nil => cases found
  | cons field rest induction =>
      rw [lookup] at found
      split at found
      · rename_i same
        cases found
        exact List.mem_cons.mpr (.inl (by rw [← beq_iff_eq.mp same]))
      · exact List.mem_cons_of_mem _ (induction found)

theorem lookup_eq_some_iff (names : DistinctNames fields) :
    lookup name fields = some value ↔ (name, value) ∈ fields := by
  constructor
  · exact mem_of_lookup
  · intro member
    induction fields with
    | nil => cases member
    | cons field rest induction =>
        rcases List.pairwise_cons.mp names with ⟨first, names⟩
        rcases List.mem_cons.mp member with rfl | inside
        · exact if_pos (beq_self_eq_true name)
        · rw [lookup, if_neg (by simpa using first _ inside), induction names inside]

theorem DistinctNames.nodup (names : DistinctNames fields) : fields.Nodup :=
  names.imp fun different same => different (congrArg Prod.fst same)

theorem perm_iff_lookup_eq {left right : List (String × Json)} (leftNames : DistinctNames left)
    (rightNames : DistinctNames right) :
    left.Perm right ↔ ∀ name, lookup name left = lookup name right := by
  rw [List.perm_ext_iff_of_nodup leftNames.nodup rightNames.nodup]
  constructor
  · intro same name
    refine Option.ext fun value => ?_
    rw [lookup_eq_some_iff leftNames, lookup_eq_some_iff rightNames, same]
  · rintro same ⟨name, value⟩
    rw [← lookup_eq_some_iff leftNames, ← lookup_eq_some_iff rightNames, same]

theorem mem_assign {field : String × Json} (member : field ∈ assign name value fields) :
    field = (name, value) ∨ field ∈ fields := by
  induction fields with
  | nil => exact .inl (List.mem_singleton.mp member)
  | cons next rest induction =>
      rw [assign] at member
      split at member
      · exact (List.mem_cons.mp member).imp_right (List.mem_cons_of_mem _)
      · rcases List.mem_cons.mp member with rfl | inside
        · exact .inr (List.mem_cons_self ..)
        · exact (induction inside).imp_right (List.mem_cons_of_mem _)

theorem lookup_assign {other : String} : lookup other (assign name value fields) =
    if name == other then some value else lookup other fields := by
  induction fields with
  | nil => rfl
  | cons field rest induction =>
      rw [assign]
      by_cases same : field.1 = name
      · rw [if_pos (beq_iff_eq.mpr same), lookup, lookup, same]
        split <;> rfl
      · rw [if_neg (by simpa using same), lookup, lookup, induction]
        by_cases found : field.1 = other
        · have apart : ¬name = other := fun equal => same (found.trans equal.symm)
          simp [found, apart]
        · simp [found]

theorem DistinctNames.assign (names : DistinctNames fields) :
    DistinctNames (assign name value fields) := by
  induction fields with
  | nil => exact List.pairwise_singleton ..
  | cons next rest induction =>
      have parts := List.pairwise_cons.mp names
      rw [Json.assign]
      split
      · rename_i same
        rw [beq_iff_eq.mp same] at parts
        exact List.pairwise_cons.mpr parts
      · rename_i different
        refine List.pairwise_cons.mpr ⟨fun field member => ?_, induction parts.2⟩
        rcases mem_assign member with rfl | inside
        · exact fun same => different (beq_iff_eq.mpr same)
        · exact parts.1 field inside

theorem assign_of_new (new : ∀ field ∈ fields, field.1 ≠ name) :
    assign name value fields = fields ++ [(name, value)] := by
  induction fields with
  | nil => rfl
  | cons field rest induction =>
      have parts := List.forall_mem_cons.mp new
      rw [Json.assign, if_neg (by simpa using parts.1), induction parts.2, List.cons_append]

theorem ofFields_of_distinct (names : DistinctNames fields) : ofFields fields = fields := by
  -- Fields are assigned behind those before them, whose names are different ones.
  have appended : ∀ {before : List (String × Json)}, DistinctNames (before ++ fields) →
      fields.foldl (fun known field => assign field.1 field.2 known) before =
        before ++ fields := by
    clear names
    induction fields with
    | nil => exact fun _ => (List.append_nil _).symm
    | cons field rest induction =>
        intro before names
        have new : ∀ other ∈ before, other.1 ≠ field.1 := fun other member =>
          (List.pairwise_append.mp names).2.2 other member field (List.mem_cons_self ..)
        have moved : before ++ field :: rest = before ++ [(field.1, field.2)] ++ rest := by simp
        rw [List.foldl_cons, assign_of_new new, moved]
        exact induction (moved ▸ names)
  exact appended names

theorem distinct_ofFields (each : ∀ field ∈ fields, Distinct field.2) :
    Distinct (record (ofFields fields)) := by
  -- The fields that were assigned so far, whatever they began with, are distinct already.
  have known : ∀ {before : List (String × Json)}, DistinctNames before →
      (∀ field ∈ before, Distinct field.2) → Distinct (record
        (fields.foldl (fun known field => assign field.1 field.2 known) before)) := by
    induction fields with
    | nil => exact fun names each => .record _ names each
    | cons field rest induction =>
        intro before names beforeEach
        have parts := List.forall_mem_cons.mp each
        refine induction parts.2 names.assign fun other member => ?_
        rcases mem_assign member with rfl | inside
        · exact parts.1
        · exact beforeEach other inside
  exact known .nil (by simp)

theorem Distinct.field? {inner : Json} (distinct : Distinct value)
    (found : value.field? name = some inner) : Distinct inner := by
  cases distinct with
  | record fields names each => exact each _ (mem_of_lookup found)
  | _ => cases found

/-! ## Reading -/

namespace Reader

variable {α β : Type}

def Yields (property : α → Prop) : Result α → Prop
  | .ok (value, _) => property value
  | .error _ => True

theorem Yields.of_eq {property : α → Prop} {result : Result α} {value : α} {rest : List Char}
    (yields : Yields property result) (found : result = .ok (value, rest)) : property value := by
  rw [found] at yields
  exact yields

theorem Yields.any (result : Result α) : Yields (fun _ => True) result := by
  cases result <;> trivial

theorem Yields.map {property : α → Prop} {other : β → Prop} {result : Result α} {make : α → β}
    (yields : Yields property result) (carried : ∀ value, property value → other (make value)) :
    Yields other (result.map fun (value, rest) => (make value, rest)) := by
  cases result with
  | error failure => trivial
  | ok found => exact carried found.1 yields

theorem distinct_of_readUnsigned {negative : Bool} {chars rest : List Char} {value : Json}
    (found : readUnsigned negative chars = some (value, rest)) : Distinct value := by
  rcases Option.map_eq_some_iff.mp found with ⟨⟨whole, after⟩, -, same⟩
  dsimp only at same
  split at same
  · cases same
    exact .int _
  · cases same
    exact .real _

theorem distinct_of_readWord {chars rest : List Char} {value : Json}
    (found : readWord chars = some (value, rest)) : Distinct value := by
  have words : ∀ word ∈ words, Distinct word.2 := by
    simp only [words, List.forall_mem_cons]
    exact ⟨.null, .bool _, .bool _, .real _, .real _, .real _, by simp⟩
  rcases List.exists_of_findSome?_eq_some found with ⟨⟨word, spoken⟩, member, same⟩
  dsimp only at same
  split at same
  · cases same
    exact words _ member
  · cases same

theorem yields_readScalar (chars : List Char) : Yields Distinct (readScalar chars) := by
  unfold readScalar
  split
  · exact distinct_of_readWord ‹_›
  · dsimp only
    split
    · rename_i found
      split at found
      · exact distinct_of_readUnsigned found
      · exact distinct_of_readUnsigned found
    · trivial

theorem yields_read (fuel : Nat) : ∀ chars,
    Yields Distinct (readValue fuel chars) ∧
    Yields (fun items => ∀ item ∈ items, Distinct item) (readItems fuel chars) ∧
    Yields (fun fields => ∀ field ∈ fields, Distinct field.2) (readFields fuel chars) := by
  induction fuel with
  | zero => exact fun chars => ⟨trivial, trivial, trivial⟩
  | succ fuel induction =>
      intro chars
      refine ⟨?_, ?_, ?_⟩
      · rw [readValue.eq_def]
        dsimp only
        split
        · exact (Yields.any _).map fun value _ => .text value
        · split
          · exact .record [] .nil (by simp)
          · exact (induction _).2.2.map fun fields each => distinct_ofFields each
        · split
          · exact .list [] (by simp)
          · exact (induction _).2.1.map fun items each => .list items each
        · exact yields_readScalar chars
      · rw [readItems.eq_def]
        dsimp only
        split
        · trivial
        · rename_i found
          have first := (induction chars).1.of_eq found
          split
          · exact List.forall_mem_singleton.mpr first
          · exact (induction _).2.1.map fun items each => List.forall_mem_cons.mpr ⟨first, each⟩
          · trivial
      · rw [readFields.eq_def]
        dsimp only
        split
        · split
          · trivial
          split
          · split
            · trivial
            · rename_i found
              have first := (induction _).1.of_eq found
              split
              · exact List.forall_mem_singleton.mpr first
              · exact (induction _).2.2.map fun fields each =>
                  List.forall_mem_cons.mpr ⟨first, each⟩
              · trivial
          · trivial
        · trivial

theorem distinct_of_readAll {chars : List Char} {value : Json} (read : readAll chars = .ok value) :
    Distinct value := by
  unfold readAll at read
  split at read
  · cases read
  split at read
  · cases read
  · rename_i found
    split at read
    · cases read
      exact (yields_read _ _).1.of_eq found
    · cases read

end Reader

/-- The records in a value that was read have distinct names. -/
theorem distinct_of_parse {source : String} {value : Json} (read : parse source = .ok value) :
    Distinct value := by
  unfold parse at read
  dsimp only at read
  split at read
  · cases read
    exact Reader.distinct_of_readAll ‹_›
  · cases read

end WorkspaceGraph.Json
