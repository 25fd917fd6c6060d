import VclRs.Interaction.Contract
import VclRs.Interaction.Head

namespace Interaction

variable {Op : Type} {Reply : Op → Type} {α : Type}

def Contract.latest (R : Event Op Reply → Prop) : Contract Op Reply (Option (Event Op Reply)) where
  rely _ := R
  guar _ _ := True
  next _ e := some e

def Reports (answer : Event Op Reply → Option α) (idle : Event Op Reply → α → Prop) (a : α)
    (last : Option (Event Op Reply)) : Prop :=
  ∃ e, last = some e ∧ (answer e = some a ∨ idle e a)

structure Prompt (C : Op → Prop) (R : Event Op Reply → Prop) (answer : Event Op Reply → Option α)
    (idle : Event Op Reply → α → Prop) (p : Prog Op Reply α) : Prop where
  prompt : p.Upholds (fun e q => C e.op ∧ (R e → ∀ a, answer e = some a → q = .ret a))
  honest : ∃ s, (Contract.latest R).wp p (Reports answer idle) s

variable {C : Op → Prop} {R : Event Op Reply → Prop} {answer : Event Op Reply → Option α}
variable {idle : Event Op Reply → α → Prop} {p q : Prog Op Reply α} {e : Event Op Reply}

theorem prompt_step (hp : Prompt C R answer idle p) (h : Prog.Step p e q) (he : R e) :
    Prompt C R answer idle q := by
  obtain ⟨s,hs⟩ := hp.honest
  have hnext := (Contract.wp_step _ hs h he).2
  exact ⟨(Prog.upholds_step hp.prompt h).2,some e,hnext⟩

theorem prompt_op (hp : Prompt C R answer idle p) (h : Prog.Step p e q) : C e.op :=
  (Prog.upholds_step hp.prompt h).1.1

theorem prompt_answer (hp : Prompt C R answer idle p) (h : Prog.Step p e q) (he : R e) {a : α}
    (ha : answer e = some a) : q = .ret a :=
  (Prog.upholds_step hp.prompt h).1.2 he a ha

theorem prompt_return {a : α} (hp : Prompt C R answer idle p) (h : Prog.Step p e (.ret a))
    (he : R e) : answer e = some a ∨ idle e a := by
  obtain ⟨s,hs⟩ := hp.honest
  obtain ⟨e',he',hrep⟩ := (Contract.wp_step _ hs h he).2
  cases he'
  exact hrep

namespace Fallible

variable {β ε σ : Type} {flag : Event Op Reply → Prop} {e₀ : ε} {x : Fallible Op Reply ε β}

def Escapes (flag : Event Op Reply → Prop) (e₀ : ε) (x : Fallible Op Reply ε β) : Prop :=
  x.prog.Upholds (fun e q => flag e → q = .ret (.error e₀))

theorem escapes_of_calls (hC : ∀ e, C e.op → ¬ flag e) (hx : x.Calls C) : Escapes flag e₀ x :=
  Prog.upholds_of_calls (fun e _ he hf => absurd hf (hC e he)) hx

theorem escapes_bind {γ : Type} {g : β → Fallible Op Reply ε γ} (hx : Escapes flag e₀ x)
    (hg : ∀ b, Escapes flag e₀ (g b)) : Escapes flag e₀ (x >>= g) := by
  apply Prog.upholds_after
  · apply Prog.upholds_mono _ hx
    intro e q hq hf
    rw [hq hf]
    rfl
  · intro r
    cases r with
    | ok b => exact hg b
    | error e => trivial

theorem escapes_ite {c : Prop} [Decidable c] {y : Fallible Op Reply ε β} (hx : Escapes flag e₀ x)
    (hy : Escapes flag e₀ y) : Escapes flag e₀ (if c then x else y) := by
  by_cases h : c
  · rw [if_pos h]
    exact hx
  · rw [if_neg h]
    exact hy

theorem escapes_loop {body : σ → Fallible Op Reply ε (σ ⊕ β)} (h : ∀ s, Escapes flag e₀ (body s))
    (s : σ) : Escapes flag e₀ (loop body s) := by
  refine Fallible.upholds_loop (fun _ => True) ?_ trivial
  intro s f _ hagain hdone hfail
  apply Prog.upholds_after
  · apply Prog.upholds_mono _ (h s)
    intro e q hq hf
    rw [hq hf]
    exact hfail e₀
  · intro r
    match r with
    | .ok (.inl s') => exact hagain s' trivial
    | .ok (.inr b) =>
      rw [hdone]
      trivial
    | .error e =>
      rw [hfail]
      trivial

end Fallible

end Interaction
