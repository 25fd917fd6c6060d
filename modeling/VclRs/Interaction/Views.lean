import VclRs.Interaction.Marks
import Mathlib.Logic.Function.Basic

namespace Interaction

inductive Change (H P : Type) where
  | keep
  | put (h : H) (p : P)
  | amend (h : H) (f : P → P)

section Charts

variable {H P : Type} [DecidableEq H]

namespace Change

def subject : Change H P → Option H
  | keep => none
  | put h _ => some h
  | amend h _ => some h

def apply (G : H → P) : Change H P → H → P
  | keep => G
  | put h p => Function.update G h p
  | amend h f => Function.update G h (f (G h))

variable {m : Change H P} {G : H → P} {h : H}

theorem apply_other (hm : m.subject ≠ some h) : m.apply G h = G h := by
  cases m with
  | keep => rfl
  | put x p =>
    have hne : h ≠ x := fun heq => hm (congrArg some heq.symm)
    exact Function.update_of_ne hne p G
  | amend x f =>
    have hne : h ≠ x := fun heq => hm (congrArg some heq.symm)
    exact Function.update_of_ne hne _ G

section Openings

variable [DecidableEq P] {E : Type}

def mark (bot : P) : Change H P → Mark H
  | keep => .keep
  | put h p => if p = bot then .unset h else .set h
  | amend _ _ => .keep

def Mild (bot : P) (m : Change H P) : Prop := ∀ h f, m = .amend h f → ∀ x, f x = bot ↔ x = bot

theorem apply_open {bot : P} (hm : m.Mild bot) {w : Finset H} (hw : G h ≠ bot ↔ h ∈ w) :
    m.apply G h ≠ bot ↔ h ∈ (m.mark bot).apply w := by
  cases m with
  | keep => exact hw
  | put x p =>
    by_cases hp : p = bot
    · by_cases hx : h = x
      · simp [apply,mark,Mark.apply,hp,hx]
      · simp only [apply,mark,if_pos hp,Mark.apply,Function.update_of_ne hx,Finset.mem_erase]
        rw [hw]
        exact (and_iff_right hx).symm
    · by_cases hx : h = x
      · simp [apply,mark,Mark.apply,hp,hx]
      · simp only [apply,mark,if_neg hp,Mark.apply,Function.update_of_ne hx,Finset.mem_insert]
        rw [hw]
        exact (or_iff_right hx).symm
  | amend x f =>
    by_cases hx : h = x
    · subst hx
      simp only [apply,mark,Mark.apply,Function.update_self,ne_eq,hm h f rfl]
      exact hw
    · simp only [apply,mark,Mark.apply,Function.update_of_ne hx]
      exact hw

def chart (bot : P) (change : E → Change H P) (tr : List E) : H → P :=
  tr.foldl (fun G e => (change e).apply G) (fun _ => bot)

variable {bot : P} {change : E → Change H P}

omit [DecidableEq P] in
theorem chart_concat (tr : List E) (e : E) :
    chart bot change (tr ++ [e]) = (change e).apply (chart bot change tr) := by
  simp [chart,List.foldl_append]

theorem chart_open (hm : ∀ e, (change e).Mild bot) (tr : List E) (h : H) :
    chart bot change tr h ≠ bot ↔ h ∈ recorded (fun e => (change e).mark bot) tr := by
  induction tr using List.reverseRecOn with
  | nil => simp [chart,recorded]
  | append_singleton tr e ih =>
    rw [chart_concat,recorded_concat]
    exact apply_open (hm e) ih

end Openings

end Change

def Below (bot : P) (V G : H → P) : Prop := ∀ h, V h ≠ bot → G h = V h

variable {bot : P} {V G : H → P} {m : Change H P}

theorem below_own (hb : Below bot V G) (hm : ∀ h f, m = .amend h f → V h ≠ bot) :
    Below bot (m.apply V) (m.apply G) := by
  intro h hh
  cases m with
  | keep => exact hb h hh
  | put x p =>
    by_cases hx : h = x
    · subst hx
      simp [Change.apply]
    · simp only [Change.apply,Function.update_of_ne hx] at hh ⊢
      exact hb h hh
  | amend x f =>
    by_cases hx : h = x
    · subst hx
      simp [Change.apply,hb h (hm h f rfl)]
    · simp only [Change.apply,Function.update_of_ne hx] at hh ⊢
      exact hb h hh

theorem below_other (hb : Below bot V G) (hm : ∀ h, m.subject = some h → V h = bot) :
    Below bot V (m.apply G) := by
  intro h hh
  have hne : m.subject ≠ some h := fun heq => hh (hm h heq)
  rw [Change.apply_other hne]
  exact hb h hh

omit [DecidableEq H] in
theorem below_restrict (K : H → Prop) [DecidablePred K] (G : H → P) :
    Below bot (fun h => if K h then G h else bot) G := by
  intro h hh
  by_cases hK : K h
  · simp [hK]
  · simp [hK] at hh

end Charts

namespace System

variable {Op : Type} {Reply : Op → Type} {Kind Obj : Type} {S : System Op Reply Kind Obj}

theorem calls_reach {P : Kind → Op → Prop} (hP : ∀ k, S.opens k → (S.code k).Calls (P k))
    {objects : Multiset Obj} {p : Pool Op Reply Kind Obj} (h : S.Reach objects p) :
    ∀ t ∈ p.tasks, t.rest.Calls (P t.kind) := by
  induction h with
  | refl => simp
  | tail hr hs ih =>
    cases hs with
    | start k hk hl hf =>
      intro t ht
      rcases Multiset.mem_cons.mp ht with rfl | ht
      · exact hP k hk
      · exact ih t ht
    | act hstep ha =>
      intro t ht
      rcases Multiset.mem_cons.mp ht with rfl | ht
      · exact (Prog.calls_step (ih _ (Multiset.mem_cons_self _ _)) hstep).2
      · exact ih t (Multiset.mem_cons_of_mem ht)
    | finish hret =>
      intro t ht
      exact ih t (Multiset.mem_cons_of_mem ht)

end System

end Interaction
