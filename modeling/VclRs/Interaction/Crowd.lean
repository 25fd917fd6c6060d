import VclRs.Interaction.Contract
import VclRs.Interaction.Advance
import Mathlib.Logic.Relation
import Mathlib.Algebra.BigOperators.Group.Finset.Piecewise

namespace Interaction

variable {Op : Type} {Reply : Op → Type} {Kind α σ : Type}

structure Guest (Op : Type) (Reply : Op → Type) (Kind α : Type) where
  kind : Kind
  past : List (Event Op Reply)
  rest : Prog Op Reply α

structure Crowd (Op : Type) (Reply : Op → Type) (Kind α : Type) where
  guests : List (Guest Op Reply Kind α)
  log : List (ℕ × Event Op Reply)

structure Venue (Op : Type) (Reply : Op → Type) (Kind α : Type) where
  code : Kind → Prog Op Reply α
  admits : List (ℕ × Event Op Reply) → Event Op Reply → Prop

def own (i : ℕ) (log : List (ℕ × Event Op Reply)) : List (Event Op Reply) :=
  (log.filter (fun x => x.1 = i)).map Prod.snd

theorem own_concat_self (i : ℕ) (log : List (ℕ × Event Op Reply)) (e : Event Op Reply) :
    own i (log ++ [(i,e)]) = own i log ++ [e] := by
  simp [own]

theorem own_concat_other {i j : ℕ} (h : j ≠ i) (log : List (ℕ × Event Op Reply))
    (e : Event Op Reply) : own i (log ++ [(j,e)]) = own i log := by
  simp [own,h]

theorem own_cons (i : ℕ) (x : ℕ × Event Op Reply) (log : List (ℕ × Event Op Reply)) :
    own i (x :: log) = if x.1 = i then x.2 :: own i log else own i log := by
  by_cases h : x.1 = i <;> simp [own,h]

theorem own_sublist (i : ℕ) (log : List (ℕ × Event Op Reply)) :
    (own i log).Sublist (log.map Prod.snd) := List.Sublist.map Prod.snd List.filter_sublist

theorem shares_sum {β : Type} (f : Event Op Reply → List β) {n : ℕ} {log : List (ℕ × Event Op Reply)}
    (h : ∀ x ∈ log, x.1 < n) : (((log.map Prod.snd).flatMap f : List β) : Multiset β) =
      ∑ i ∈ Finset.range n, (((own i log).flatMap f : List β) : Multiset β) := by
  induction log with
  | nil => simp [own]
  | cons x log ih =>
    have hshare : ∀ i, (((own i (x :: log)).flatMap f : List β) : Multiset β) =
        (if x.1 = i then (f x.2 : Multiset β) else 0) + ((own i log).flatMap f : List β) := by
      intro i
      rw [own_cons]
      split_ifs with hi
      · simp
      · simp
    have hlog : ∀ y ∈ log, y.1 < n := fun y hy => h y (List.mem_cons_of_mem _ hy)
    have hx : x.1 ∈ Finset.range n := Finset.mem_range.mpr (h x List.mem_cons_self)
    simp only [hshare,Finset.sum_add_distrib,Finset.sum_ite_eq,if_pos hx,← ih hlog]
    simp

namespace Venue

variable (V : Venue Op Reply Kind α)

inductive Step : Crowd Op Reply Kind α → Crowd Op Reply Kind α → Prop
  | enter {C : Crowd Op Reply Kind α} (k : Kind) : Step C ⟨C.guests ++ [⟨k,[],V.code k⟩],C.log⟩
  | act {C : Crowd Op Reply Kind α} {i : ℕ} {k : Kind} {past : List (Event Op Reply)}
      {p q : Prog Op Reply α} {e : Event Op Reply} (hg : C.guests[i]? = some ⟨k,past,p⟩)
      (hs : Prog.Step p e q) (ha : V.admits C.log e) :
      Step C ⟨C.guests.set i ⟨k,past ++ [e],q⟩,C.log ++ [(i,e)]⟩

def Reach : Crowd Op Reply Kind α → Prop := Relation.ReflTransGen V.Step ⟨[],[]⟩

def Admitted (i : ℕ) : List (ℕ × Event Op Reply) → List (Event Op Reply) → Prop
  | _, [] => True
  | log, e :: tr => V.admits log e ∧ Admitted i (log ++ [(i,e)]) tr

variable {V} {C C' : Crowd Op Reply Kind α} {i : ℕ} {g : Guest Op Reply Kind α}

theorem log_reach {P : List (ℕ × Event Op Reply) → Prop} (hnil : P [])
    (hact : ∀ log i e, V.admits log e → P log → P (log ++ [(i,e)])) (h : V.Reach C) : P C.log := by
  induction h with
  | refl => exact hnil
  | tail _ hs ih =>
    cases hs with
    | enter k => exact ih
    | act hg hs ha => exact hact _ _ _ ha ih

theorem enter_cases {guests : List (Guest Op Reply Kind α)} {g₀ : Guest Op Reply Kind α}
    (h : (guests ++ [g₀])[i]? = some g) :
    guests[i]? = some g ∨ i = guests.length ∧ g = g₀ := by
  by_cases hlt : i < guests.length
  · rw [List.getElem?_append_left hlt] at h
    exact .inl h
  · rw [List.getElem?_append_right (by omega)] at h
    obtain ⟨hzero,heq⟩ := List.getElem?_eq_some_iff.mp h
    rw [List.length_singleton] at hzero
    refine .inr ⟨by omega,?_⟩
    rw [← heq]
    simp

theorem act_cases {guests : List (Guest Op Reply Kind α)} {g₀ : Guest Op Reply Kind α} {j : ℕ}
    (h : (guests.set j g₀)[i]? = some g) : i = j ∧ g = g₀ ∨ i ≠ j ∧ guests[i]? = some g := by
  by_cases hij : i = j
  · subst hij
    obtain ⟨hlt,heq⟩ := List.getElem?_eq_some_iff.mp h
    rw [List.getElem_set_self] at heq
    exact .inl ⟨rfl,heq.symm⟩
  · rw [List.getElem?_set_ne (Ne.symm hij)] at h
    exact .inr ⟨hij,h⟩

theorem set_same {guests : List (Guest Op Reply Kind α)} (h : guests[i]? = some g) :
    guests.set i g = guests := by
  obtain ⟨hi,rfl⟩ := List.getElem?_eq_some_iff.mp h
  exact List.set_getElem_self hi

theorem reach_advance (answer : ℕ → (o : Op) → Reply o) (fuel n j : ℕ) (hg : C.guests[i]? = some g)
    (hadm : V.Admitted i C.log (g.rest.advance answer fuel n j).1) (h : V.Reach C) :
    V.Reach ⟨C.guests.set i ⟨g.kind,g.past ++ (g.rest.advance answer fuel n j).1,
      (g.rest.advance answer fuel n j).2⟩,C.log ++ (g.rest.advance answer fuel n j).1.map (i,·)⟩ := by
  induction n generalizing j C g with
  | zero =>
    simp only [Prog.advance,List.append_nil,List.map_nil,set_same hg]
    exact h
  | succ n ih =>
    cases hx : g.rest.expose fuel with
    | none =>
      simp only [Prog.advance,hx,List.append_nil,List.map_nil,set_same hg]
      exact h
    | some x =>
      obtain ⟨o,k⟩ := x
      simp only [Prog.advance,hx] at hadm ⊢
      have hstep := Prog.head_step (Prog.expose_head hx) (answer j o)
      have hi := (List.getElem?_eq_some_iff.mp hg).1
      have hrest := ih (g := ⟨g.kind,g.past ++ [⟨o,answer j o⟩],k (answer j o)⟩) (j + 1)
        (List.getElem?_set_self hi) hadm.2 (h.tail (.act hg hstep hadm.1))
      simp only [List.set_set,List.append_assoc,List.singleton_append] at hrest
      exact hrest

theorem own_past (h : V.Reach C) : (∀ (i : ℕ) g, C.guests[i]? = some g → own i C.log = g.past) ∧
    ∀ i, C.guests.length ≤ i → own i C.log = [] := by
  induction h with
  | refl => simp [own]
  | @tail C _ _ hs ih =>
    cases hs with
    | enter k =>
      constructor
      · intro i g hg
        rcases enter_cases hg with hg | ⟨rfl,rfl⟩
        · exact ih.1 i g hg
        · exact ih.2 _ (Nat.le_refl _)
      · intro i hi
        rw [List.length_append] at hi
        exact ih.2 i (by omega)
    | @act j k past p q e hg hs ha =>
      constructor
      · intro i g hi
        rcases act_cases hi with ⟨rfl,rfl⟩ | ⟨hne,hi⟩
        · rw [own_concat_self,ih.1 _ _ hg]
        · rw [own_concat_other (Ne.symm hne)]
          exact ih.1 i g hi
      · intro i hi
        rw [List.length_set] at hi
        have hlt := (List.getElem?_eq_some_iff.mp hg).1
        rw [own_concat_other (by omega)]
        exact ih.2 i hi

theorem log_index (h : V.Reach C) : ∀ x ∈ C.log, x.1 < C.guests.length := by
  intro x hx
  by_contra hlt
  have hnil := (own_past h).2 x.1 (Nat.le_of_not_lt hlt)
  have hmem : x.2 ∈ own x.1 C.log := by
    simp only [own,List.mem_map,List.mem_filter,decide_eq_true_eq]
    exact ⟨x,⟨hx,rfl⟩,rfl⟩
  rw [hnil] at hmem
  exact List.not_mem_nil hmem

theorem upholds_reach {P : Kind → Event Op Reply → Prog Op Reply α → Prop}
    (hP : ∀ k, (V.code k).Upholds (P k)) (h : V.Reach C) : ∀ g ∈ C.guests,
      g.rest.Upholds (P g.kind) ∧ ∀ e, g.past.getLast? = some e → P g.kind e g.rest := by
  induction h with
  | refl => simp
  | tail _ hs ih =>
    cases hs with
    | enter k =>
      intro g hg
      rcases List.mem_append.mp hg with hg | hg
      · exact ih g hg
      · obtain rfl := List.mem_singleton.mp hg
        exact ⟨hP k,by simp⟩
    | act hg hs ha =>
      intro g hmem
      rcases List.mem_or_eq_of_mem_set hmem with hmem | rfl
      · exact ih g hmem
      · obtain ⟨hlast,hrest⟩ := Prog.upholds_step (ih _ (List.mem_of_getElem? hg)).1 hs
        refine ⟨hrest,?_⟩
        intro e he
        rw [List.getLast?_concat] at he
        cases he
        exact hlast

end Venue

structure Pledge (V : Venue Op Reply Kind α) (σ : Type) where
  contract : Kind → Contract Op Reply σ
  init : Kind → σ
  post : Kind → α → σ → Prop
  keeps : ∀ k, (contract k).wp (V.code k) (post k) (init k)
  relies : ∀ log k e s, V.admits log e → (contract k).rely s e

namespace Pledge

variable {V : Venue Op Reply Kind α} (A : Pledge V σ) {C : Crowd Op Reply Kind α}

def state (g : Guest Op Reply Kind α) : σ := (A.contract g.kind).after (A.init g.kind) g.past

structure Held (g : Guest Op Reply Kind α) : Prop where
  kept : (A.contract g.kind).Kept (A.init g.kind) g.past
  due : (A.contract g.kind).wp g.rest (A.post g.kind) (A.state g)

theorem held_enter (k : Kind) : A.Held ⟨k,[],V.code k⟩ := ⟨trivial,A.keeps k⟩

theorem held_act {k : Kind} {past : List (Event Op Reply)} {p q : Prog Op Reply α}
    {e : Event Op Reply} {log : List (ℕ × Event Op Reply)} (h : A.Held ⟨k,past,p⟩)
    (hs : Prog.Step p e q) (ha : V.admits log e) : A.Held ⟨k,past ++ [e],q⟩ := by
  obtain ⟨hg,hw⟩ := (A.contract k).wp_step h.due hs (A.relies log k e _ ha)
  constructor
  · rw [Contract.kept_append]
    exact ⟨h.kept,hg,trivial⟩
  · change (A.contract k).wp q (A.post k) ((A.contract k).after (A.init k) (past ++ [e]))
    rw [Contract.after_append]
    exact hw

theorem held_reach (h : V.Reach C) : ∀ g ∈ C.guests, A.Held g := by
  induction h with
  | refl => simp
  | tail _ hs ih =>
    cases hs with
    | enter k =>
      intro g hg
      rcases List.mem_append.mp hg with hg | hg
      · exact ih g hg
      · obtain rfl := List.mem_singleton.mp hg
        exact A.held_enter k
    | act hg hs ha =>
      intro g hmem
      rcases List.mem_or_eq_of_mem_set hmem with hmem | rfl
      · exact ih g hmem
      · exact A.held_act (ih _ (List.mem_of_getElem? hg)) hs ha

theorem returned {g : Guest Op Reply Kind α} {a : α} (h : V.Reach C) (hg : g ∈ C.guests)
    (hr : g.rest.Returns a) : A.post g.kind a (A.state g) :=
  (A.contract g.kind).wp_returns (A.held_reach h g hg).due hr

theorem promised {g : Guest Op Reply Kind α} {e : Event Op Reply} {q : Prog Op Reply α}
    (h : V.Reach C) (hg : g ∈ C.guests) (hs : Prog.Step g.rest e q)
    (hr : (A.contract g.kind).rely (A.state g) e) : (A.contract g.kind).guar (A.state g) e :=
  ((A.contract g.kind).wp_step (A.held_reach h g hg).due hs hr).1

end Pledge

end Interaction
