/-!
Results of steps one after another. There is a value at the end only if every step gives one.
-/

namespace WorkspaceGraph

theorem bind_eq_ok {ε α β : Type} {first : Except ε α} {next : α → Except ε β} {value : β} :
    (first >>= next) = .ok value ↔ ∃ middle, first = .ok middle ∧ next middle = .ok value := by
  cases first with
  | error error => exact ⟨nofun, nofun⟩
  | ok middle =>
      refine ⟨fun made => ⟨middle, rfl, made⟩, ?_⟩
      rintro ⟨other, same, made⟩
      cases same
      exact made

theorem ok_bind {ε α β : Type} (value : α) (next : α → Except ε β) :
    (.ok value >>= next) = next value := rfl

theorem error_bind {ε α β : Type} (error : ε) (next : α → Except ε β) :
    (.error error >>= next) = .error error := rfl

theorem map_eq_ok {ε α β : Type} {first : Except ε α} {make : α → β} {value : β} :
    first.map make = .ok value ↔ ∃ middle, first = .ok middle ∧ make middle = value := by
  cases first with
  | error error => exact ⟨nofun, nofun⟩
  | ok middle => simp [Except.map]

end WorkspaceGraph
