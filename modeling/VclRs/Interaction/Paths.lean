import VclRs.Interaction.Contract
import VclRs.Interaction.Advance
import VclRs.Interaction.Runs

namespace Interaction

variable {Op : Type} {Reply : Op → Type} {α σ : Type} {p q : Prog Op Reply α}

theorem Contract.wp_path (C : Contract Op Reply σ) {Q : α → σ → Prop} {s : σ}
    {tr : List (Event Op Reply)} (h : C.wp p Q s) (hp : Prog.Path p tr q) (hrel : C.Relied s tr) :
    C.Kept s tr ∧ C.wp q Q (C.after s tr) := by
  induction hp generalizing s with
  | nil p => exact ⟨trivial,h⟩
  | cons hs _ ih =>
    obtain ⟨hg,hw⟩ := C.wp_step h hs hrel.1
    obtain ⟨hk,hrest⟩ := ih hw hrel.2
    exact ⟨⟨hg,hk⟩,hrest⟩

theorem Contract.kept_invariant (C : Contract Op Reply σ) {I : σ → Prop} {s : σ}
    {tr : List (Event Op Reply)} (hI : ∀ s e, I s → C.guar s e → I (C.next s e)) (h : C.Kept s tr)
    (hs : I s) : I (C.after s tr) := by
  induction tr generalizing s with
  | nil => exact hs
  | cons e tr ih => exact ih h.2 (hI s e hs h.1)

theorem Prog.advance_path (answer : ℕ → (o : Op) → Reply o) (fuel n i : ℕ) (p : Prog Op Reply α) :
    Prog.Path p (p.advance answer fuel n i).1 (p.advance answer fuel n i).2 := by
  induction n generalizing p i with
  | zero => exact .nil p
  | succ n ih =>
    cases hx : p.expose fuel with
    | none =>
      simp only [Prog.advance,hx]
      exact .nil p
    | some x =>
      simp only [Prog.advance,hx]
      exact .cons (Prog.head_step (Prog.expose_head hx) _) (ih _ _)

end Interaction
