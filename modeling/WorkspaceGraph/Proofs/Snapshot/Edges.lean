import WorkspaceGraph.Snapshot.Canonical
import WorkspaceGraph.Proofs.Order
/-!
Canonical edges. Joining edges neither loses nor invents a file, and leaves one edge for every
source and target, in strictly increasing order.
-/

namespace WorkspaceGraph.Snapshot

def Listed (edges : List Edge) (source target file : String) : Prop :=
  ∃ edge ∈ edges, edge.source = source ∧ edge.target = target ∧ file ∈ edge.files

theorem Edge.key_eq_iff {left right : Edge} :
    left.key = right.key ↔ left.source = right.source ∧ left.target = right.target := by
  simp [key]

variable {edge other : Edge} {edges : List Edge} {source target file : String}

theorem listed_cons : Listed (edge :: edges) source target file ↔
    (edge.source = source ∧ edge.target = target ∧ file ∈ edge.files) ∨
      Listed edges source target file := by
  simp [Listed]

theorem listed_flatMap {α : Type} {list : List α} {edgesOf : α → List Edge} :
    Listed (list.flatMap edgesOf) source target file ↔
      ∃ entry ∈ list, Listed (edgesOf entry) source target file := by
  constructor
  · rintro ⟨edge, member, holds⟩
    rcases List.mem_flatMap.mp member with ⟨entry, inside, member⟩
    exact ⟨entry, inside, edge, member, holds⟩
  · rintro ⟨entry, inside, edge, member, holds⟩
    exact ⟨edge, List.mem_flatMap.mpr ⟨entry, inside, member⟩, holds⟩

theorem listed_insertEdge : Listed (insertEdge edge edges) source target file ↔
    (edge.source = source ∧ edge.target = target ∧ file ∈ edge.files) ∨
      Listed edges source target file := by
  induction edges with
  | nil => simp [insertEdge, Listed, Order.mem_distinct]
  | cons next rest induction =>
      rw [insertEdge]
      split
      · rw [listed_cons]
        simp only [Order.mem_distinct]
      split
      · rename_i same
        have ⟨sameSource, sameTarget⟩ := Edge.key_eq_iff.mp same
        rw [listed_cons, listed_cons, sameSource, sameTarget]
        simp only [Order.mem_distinct, List.mem_append]
        rw [← or_assoc, ← and_or_left, ← and_or_left]
      · rw [listed_cons, listed_cons, induction, or_left_comm]

theorem listed_mergeEdges : Listed (mergeEdges edges) source target file ↔
    Listed edges source target file := by
  induction edges with
  | nil => exact .rfl
  | cons edge rest induction =>
      rw [mergeEdges] at induction ⊢
      rw [List.foldr_cons, listed_insertEdge, induction, listed_cons]

theorem mem_insertEdge (member : other ∈ insertEdge edge edges) :
    other ∈ edges ∨
      other.key = edge.key ∧ ∃ more, other.files = Order.distinct (edge.files ++ more) := by
  induction edges with
  | nil =>
      cases List.mem_singleton.mp member
      exact .inr ⟨rfl, [], by simp⟩
  | cons next rest induction =>
      rw [insertEdge] at member
      split at member
      · rcases List.mem_cons.mp member with rfl | inside
        · exact .inr ⟨rfl, [], by simp⟩
        · exact .inl inside
      split at member
      · rename_i same
        rcases List.mem_cons.mp member with rfl | inside
        · exact .inr ⟨same.symm, next.files, rfl⟩
        · exact .inl (List.mem_cons_of_mem _ inside)
      · rcases List.mem_cons.mp member with rfl | inside
        · exact .inl (List.mem_cons_self ..)
        · exact (induction inside).imp_left (List.mem_cons_of_mem _)

theorem insertEdge_increasing (increasing : edges.Pairwise fun left right => left.key < right.key) :
    (insertEdge edge edges).Pairwise fun left right => left.key < right.key := by
  induction edges with
  | nil => exact List.pairwise_singleton ..
  | cons next rest induction =>
      have parts := List.pairwise_cons.mp increasing
      rw [insertEdge]
      split
      · rename_i first
        refine List.pairwise_cons.mpr ⟨List.forall_mem_cons.mpr ⟨first, ?_⟩, increasing⟩
        exact fun other member => List.lt_trans first (parts.1 other member)
      split
      · exact List.pairwise_cons.mpr parts
      · rename_i notFirst different
        have after : next.key < edge.key := Order.lt_of_not_lt_of_ne notFirst (Ne.symm different)
        refine List.pairwise_cons.mpr ⟨fun other member => ?_, induction parts.2⟩
        rcases mem_insertEdge member with inside | ⟨same, -⟩
        · exact parts.1 other inside
        · exact same ▸ after

theorem mergeEdges_increasing (edges : List Edge) :
    (mergeEdges edges).Pairwise fun left right => left.key < right.key := by
  induction edges with
  | nil => exact .nil
  | cons edge rest induction => exact insertEdge_increasing induction

theorem files_increasing (member : edge ∈ mergeEdges edges) : edge.files.Pairwise (· < ·) := by
  induction edges with
  | nil => cases member
  | cons first rest induction =>
      rcases mem_insertEdge member with inside | ⟨-, more, whole⟩
      · exact induction inside
      · rw [whole]
        exact Order.distinct_increasing _

theorem files_mergeEdges (files : ∀ edge ∈ edges, edge.files ≠ [])
    (member : edge ∈ mergeEdges edges) : edge.files ≠ [] := by
  induction edges with
  | nil => cases member
  | cons first rest induction =>
      have parts := List.forall_mem_cons.mp files
      rcases mem_insertEdge member with inside | ⟨-, more, whole⟩
      · exact induction parts.2 inside
      · rw [whole]
        intro empty
        cases firstFiles : first.files with
        | nil => exact parts.1 firstFiles
        | cons file others =>
            have inside : file ∈ Order.distinct (first.files ++ more) := by
              simp [Order.mem_distinct, firstFiles]
            rw [empty] at inside
            cases inside

/-! ## Joined edges -/

theorem insertEdge_of_before (files : edge.files.Pairwise (· < ·))
    (first : ∀ other ∈ edges, edge.key < other.key) : insertEdge edge edges = edge :: edges := by
  cases edges with
  | nil => simp [insertEdge, Order.distinct_of_increasing files]
  | cons next rest => simp [insertEdge, first next, Order.distinct_of_increasing files]

theorem mergeEdges_of_increasing
    (increasing : edges.Pairwise fun left right => left.key < right.key)
    (files : ∀ edge ∈ edges, edge.files.Pairwise (· < ·)) : mergeEdges edges = edges := by
  induction edges with
  | nil => rfl
  | cons edge rest induction =>
      have parts := List.pairwise_cons.mp increasing
      have filesParts := List.forall_mem_cons.mp files
      rw [mergeEdges] at induction ⊢
      rw [List.foldr_cons, induction parts.2 filesParts.2]
      exact insertEdge_of_before filesParts.1 parts.1

/-! ## Pairs -/

def Connected (edges : List Edge) (source target : String) : Prop :=
  ∃ edge ∈ edges, edge.source = source ∧ edge.target = target

theorem connected_cons : Connected (edge :: edges) source target ↔
    (edge.source = source ∧ edge.target = target) ∨ Connected edges source target := by
  simp [Connected]

theorem connected_insertEdge : Connected (insertEdge edge edges) source target ↔
    (edge.source = source ∧ edge.target = target) ∨ Connected edges source target := by
  induction edges with
  | nil => simp [insertEdge, Connected]
  | cons next rest induction =>
      rw [insertEdge]
      split
      · simp only [connected_cons]
      split
      · rename_i same
        have ⟨sameSource, sameTarget⟩ := Edge.key_eq_iff.mp same
        rw [connected_cons, connected_cons, sameSource, sameTarget, ← or_assoc, or_self]
      · rw [connected_cons, connected_cons, induction, or_left_comm]

theorem connected_mergeEdges : Connected (mergeEdges edges) source target ↔
    Connected edges source target := by
  induction edges with
  | nil => exact .rfl
  | cons edge rest induction =>
      rw [mergeEdges] at induction ⊢
      rw [List.foldr_cons, connected_insertEdge, induction, connected_cons]

/-! ## Without loops -/

theorem mem_canonicalEdges :
    edge ∈ canonicalEdges edges ↔ edge ∈ mergeEdges edges ∧ edge.source ≠ edge.target := by
  rw [canonicalEdges, List.mem_filter, bne_iff_ne]

theorem connected_canonicalEdges : Connected (canonicalEdges edges) source target ↔
    Connected edges source target ∧ source ≠ target := by
  rw [← @connected_mergeEdges edges]
  constructor
  · rintro ⟨edge, member, rfl, rfl⟩
    have ⟨merged, different⟩ := mem_canonicalEdges.mp member
    exact ⟨⟨edge, merged, rfl, rfl⟩, different⟩
  · rintro ⟨⟨edge, merged, rfl, rfl⟩, different⟩
    exact ⟨edge, mem_canonicalEdges.mpr ⟨merged, different⟩, rfl, rfl⟩

theorem listed_canonicalEdges : Listed (canonicalEdges edges) source target file ↔
    Listed edges source target file ∧ source ≠ target := by
  rw [← @listed_mergeEdges edges]
  constructor
  · rintro ⟨edge, member, rfl, rfl, inside⟩
    have ⟨merged, different⟩ := mem_canonicalEdges.mp member
    exact ⟨⟨edge, merged, rfl, rfl, inside⟩, different⟩
  · rintro ⟨⟨edge, merged, rfl, rfl, inside⟩, different⟩
    exact ⟨edge, mem_canonicalEdges.mpr ⟨merged, different⟩, rfl, rfl, inside⟩

theorem canonicalEdges_increasing (edges : List Edge) :
    (canonicalEdges edges).Pairwise fun left right => left.key < right.key :=
  (mergeEdges_increasing edges).filter _

theorem canonicalEdges_canonicalEdges (edges : List Edge) :
    canonicalEdges (canonicalEdges edges) = canonicalEdges edges := by
  have merged : mergeEdges (canonicalEdges edges) = canonicalEdges edges :=
    mergeEdges_of_increasing (canonicalEdges_increasing edges) fun _ member =>
      files_increasing (mem_canonicalEdges.mp member).1
  rw [canonicalEdges, merged, List.filter_eq_self]
  exact fun edge member => bne_iff_ne.mpr (mem_canonicalEdges.mp member).2

end WorkspaceGraph.Snapshot
