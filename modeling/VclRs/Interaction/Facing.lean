import VclRs.Interaction.Total
import Mathlib.Data.List.Induction

namespace Interaction

def historiesFrom {ε : Type} (past : List ε) : List ε → List (List ε × ε)
  | [] => []
  | e :: tr => (past,e) :: historiesFrom (past ++ [e]) tr

def histories {ε : Type} (tr : List ε) : List (List ε × ε) := historiesFrom [] tr

section Histories

variable {ε : Type}

theorem historiesFrom_append (past xs ys : List ε) :
    historiesFrom past (xs ++ ys) = historiesFrom past xs ++ historiesFrom (past ++ xs) ys := by
  induction xs generalizing past with
  | nil => simp [historiesFrom]
  | cons x xs ih => simp [historiesFrom,ih]

theorem histories_concat (tr : List ε) (e : ε) :
    histories (tr ++ [e]) = histories tr ++ [(tr,e)] := by
  rw [histories,historiesFrom_append]
  rfl

theorem mem_histories_concat {tr : List ε} {e : ε} {x : List ε × ε} :
    x ∈ histories (tr ++ [e]) ↔ x ∈ histories tr ∨ x = (tr,e) := by
  rw [histories_concat,List.mem_append,List.mem_singleton]

theorem mem_histories {tr : List ε} {x : List ε × ε} (h : x ∈ histories tr) :
    ∃ post, tr = x.1 ++ x.2 :: post := by
  induction tr using List.reverseRecOn with
  | nil => cases h
  | append_singleton tr e ih =>
    rcases mem_histories_concat.mp h with h | rfl
    · obtain ⟨post,hpost⟩ := ih h
      exact ⟨post ++ [e],by rw [hpost]; simp⟩
    · exact ⟨[],rfl⟩

end Histories

section Facing

variable {Op : Type} {Reply : Op → Type}

def Consistent (answer : List (Event Op Reply) → (o : Op) → Reply o) (tr : List (Event Op Reply)) :
    Prop :=
  ∀ x ∈ histories tr, x.2.reply = answer x.1 x.2.op

namespace Contract

def facing (answer : List (Event Op Reply) → (o : Op) → Reply o) :
    Contract Op Reply (List (Event Op Reply)) where
  rely past e := Consistent answer past ∧ e.reply = answer past e.op
  guar _ _ := True
  next past e := past ++ [e]

variable {answer : List (Event Op Reply) → (o : Op) → Reply o} {past tr : List (Event Op Reply)}

theorem consistent_nil : Consistent answer [] := by
  intro x hx
  cases hx

theorem consistent_concat {e : Event Op Reply} :
    Consistent answer (past ++ [e]) ↔ Consistent answer past ∧ e.reply = answer past e.op := by
  simp only [Consistent,histories_concat,List.forall_mem_append,List.forall_mem_singleton]

theorem consistent_append (h : Consistent answer (past ++ tr)) : Consistent answer past := by
  intro x hx
  apply h
  rw [histories,historiesFrom_append]
  exact List.mem_append_left _ hx

theorem facing_live (past : List (Event Op Reply)) (o : Op) (h : Consistent answer past) :
    ∃ r, (facing answer).rely past ⟨o,r⟩ ∧ Consistent answer ((facing answer).next past ⟨o,r⟩) :=
  ⟨answer past o,⟨h,rfl⟩,consistent_concat.mpr ⟨h,rfl⟩⟩

theorem facing_after (past tr : List (Event Op Reply)) : (facing answer).after past tr = past ++ tr := by
  induction tr generalizing past with
  | nil => rw [after_nil,List.append_nil]
  | cons e tr ih =>
    rw [after_cons,ih,List.append_cons]
    rfl

theorem facing_relied (h : Consistent answer (past ++ tr)) : (facing answer).Relied past tr := by
  induction tr generalizing past with
  | nil => trivial
  | cons e tr ih =>
    rw [List.append_cons] at h
    exact ⟨consistent_concat.mp (consistent_append h),ih h⟩

theorem relied_consistent (h : (facing answer).Relied past tr) (hp : Consistent answer past) :
    Consistent answer (past ++ tr) := by
  induction tr generalizing past with
  | nil =>
    rw [List.append_nil]
    exact hp
  | cons e tr ih =>
    rw [List.append_cons]
    exact ih h.2 (consistent_concat.mpr h.1)

end Contract

end Facing

end Interaction
