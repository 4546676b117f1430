import LocalCert.Failure

/-
  Results of two runs side by side: the same failure in
  both, or values in both that are related.

  Main declarations:
    * `Match`
    * `Match.cases`
    * `Match.bind`
-/

------------------------------------------------------------
-- Matching Results
------------------------------------------------------------

namespace LocalCert

/-
  Whether two results are the same failure, or values that
  are related.
-/
def Match
    {ε α β : Type}
    (Q : α → β → Prop) :
    Except ε α → Except ε β → Prop
  | .ok a, .ok b => Q a b
  | .error f, .error g => f = g
  | _, _ => False

namespace Match

variable {ε α β γ δ : Type}
variable {Q : α → β → Prop}
variable {S : γ → δ → Prop}

theorem refl
    {R : α → α → Prop}
    (hRefl : ∀ a, R a a)
    (r : Except ε α) :
    Match R r r := by
  cases r with
  | ok a => exact hRefl a
  | error f => rfl

/- Two results that match are both failures or both values. -/
theorem cases
    {r : Except ε α}
    {s : Except ε β}
    (hMatch : Match Q r s) :
    (∃ f, r = .error f ∧ s = .error f) ∨
      ∃ a b, r = .ok a ∧ s = .ok b ∧ Q a b := by
  cases r with
  | ok a =>
      cases s with
      | ok b => exact .inr ⟨a, b, rfl, rfl, hMatch⟩
      | error g => exact hMatch.elim
  | error f =>
      cases s with
      | ok b => exact hMatch.elim
      | error g =>
          cases hMatch
          exact .inl ⟨f, rfl, rfl⟩

/- Results that match in their values are the same. -/
theorem eq
    {r s : Except ε α}
    (hMatch : Match Eq r s) :
    r = s := by
  rcases hMatch.cases with
    ⟨f, rfl, rfl⟩ | ⟨a, _, rfl, rfl, rfl⟩
  · rfl
  · rfl

/- Values that are related in one way are so in another. -/
theorem mono
    {P : α → β → Prop}
    {r : Except ε α}
    {s : Except ε β}
    (hMatch : Match Q r s)
    (hMore : ∀ a b, Q a b → P a b) :
    Match P r s := by
  rcases hMatch.cases with
    ⟨f, rfl, rfl⟩ | ⟨a, b, rfl, rfl, hValues⟩
  · rfl
  · exact hMore a b hValues

/- What follows values that are related. -/
theorem bind
    {r : Except ε α}
    {s : Except ε β}
    {next : α → Except ε γ}
    {nextTwin : β → Except ε δ}
    (hFirst : Match Q r s)
    (hNext : ∀ a b, Q a b → Match S (next a) (nextTwin b)) :
    Match S (r >>= next) (s >>= nextTwin) := by
  rcases hFirst.cases with
    ⟨f, rfl, rfl⟩ | ⟨a, b, rfl, rfl, hValues⟩
  · rfl
  · exact hNext a b hValues

theorem map
    {r : Except ε α}
    {s : Except ε β}
    {f : α → γ}
    {g : β → δ}
    (hFirst : Match Q r s)
    (hValues : ∀ a b, Q a b → S (f a) (g b)) :
    Match S (r.map f) (s.map g) := by
  rcases hFirst.cases with
    ⟨e, rfl, rfl⟩ | ⟨a, b, rfl, rfl, hRelated⟩
  · rfl
  · exact hValues a b hRelated

end Match

end LocalCert
