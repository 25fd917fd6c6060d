import Mathlib.Data.List.Nodup
import Mathlib.Algebra.BigOperators.Group.Multiset.Basic

namespace Interaction

structure Notify (W τ : Type) where
  permit : Option τ
  queue : List W
  woken : List (W × τ)
  distinct : (queue ++ woken.map Prod.fst).Nodup
  idle : queue ≠ [] → permit = none

namespace Notify

variable {W τ : Type}

def new : Notify W τ where
  permit := none
  queue := []
  woken := []
  distinct := List.nodup_nil
  idle _ := rfl

def members (N : Notify W τ) : List W := N.queue ++ N.woken.map Prod.fst

def holdings (N : Notify W τ) : Multiset τ := N.permit.toList + N.woken.map Prod.snd

def notifyOne [Add τ] (N : Notify W τ) (x : τ) : Notify W τ :=
  match h : N.queue with
  | [] =>
    { permit := some (N.permit.elim x (· + x))
      queue := []
      woken := N.woken
      distinct := by simpa [h] using N.distinct
      idle := by simp }
  | w :: ws =>
    { permit := N.permit
      queue := ws
      woken := (w,x) :: N.woken
      distinct := by
        have hd := N.distinct
        rw [h] at hd
        exact List.nodup_middle.mpr hd
      idle := fun _ => N.idle (by simp [h]) }

variable {N : Notify W τ} {v w : W} {x : τ}

theorem keys_nodup (N : Notify W τ) : (N.woken.map Prod.fst).Nodup :=
  (List.nodup_append.mp N.distinct).2.1

theorem mem_members : v ∈ N.members ↔ v ∈ N.queue ∨ ∃ x, (v,x) ∈ N.woken := by
  simp [members]

theorem queue_not_woken (h : w ∈ N.queue) (x : τ) : (w,x) ∉ N.woken := by
  intro hx
  have hd := (List.nodup_append.mp N.distinct).2.2 w h w (List.mem_map.mpr ⟨(w,x),hx,rfl⟩)
  exact hd rfl

section NotifyOne

variable [Add τ]

theorem notifyOne_nil (h : N.queue = []) : (N.notifyOne x).queue = [] ∧
    (N.notifyOne x).woken = N.woken ∧ (N.notifyOne x).permit = some (N.permit.elim x (· + x)) := by
  unfold notifyOne
  split
  · exact ⟨rfl,rfl,rfl⟩
  · simp_all

theorem notifyOne_cons {ws : List W} (h : N.queue = w :: ws) : (N.notifyOne x).queue = ws ∧
    (N.notifyOne x).woken = (w,x) :: N.woken ∧ (N.notifyOne x).permit = none := by
  have hp : N.permit = none := N.idle (by simp [h])
  unfold notifyOne
  split
  · simp_all
  · simp_all

theorem mem_notifyOne : v ∈ (N.notifyOne x).members ↔ v ∈ N.members := by
  cases h : N.queue with
  | nil =>
    obtain ⟨hq,hw,-⟩ := notifyOne_nil (x := x) h
    rw [mem_members,mem_members,hq,hw,h]
  | cons w ws =>
    obtain ⟨hq,hw,-⟩ := notifyOne_cons (x := x) h
    simp only [mem_members,hq,hw,h,List.mem_cons,Prod.mk.injEq]
    constructor
    · rintro (hv | ⟨y,⟨rfl,-⟩ | hv⟩)
      · exact .inl (.inr hv)
      · exact .inl (.inl rfl)
      · exact .inr ⟨y,hv⟩
    · rintro ((rfl | hv) | ⟨y,hv⟩)
      · exact .inr ⟨x,.inl ⟨rfl,rfl⟩⟩
      · exact .inl hv
      · exact .inr ⟨y,.inr hv⟩

inductive Absorbs (N N' : Notify W τ) (x : τ) : Prop
  | apart (h : N'.holdings = x ::ₘ N.holdings)
  | merged (y : τ) (rest : Multiset τ) (hp : N.permit = some y) (hp' : N'.permit = some (y + x))
      (h : N.holdings = y ::ₘ rest) (h' : N'.holdings = (y + x) ::ₘ rest)

theorem notifyOne_absorbs (N : Notify W τ) (x : τ) : Absorbs N (N.notifyOne x) x := by
  cases h : N.queue with
  | nil =>
    obtain ⟨-,hw,hp⟩ := notifyOne_nil (x := x) h
    cases hN : N.permit with
    | none =>
      rw [hN] at hp
      refine .apart ?_
      simp [holdings,hw,hp,hN]
    | some y =>
      rw [hN] at hp
      refine .merged y (N.woken.map Prod.snd) hN hp ?_ ?_
      · simp [holdings,hN]
      · simp [holdings,hw,hp]
  | cons w ws =>
    obtain ⟨-,hw,hp⟩ := notifyOne_cons (x := x) h
    have hN : N.permit = none := N.idle (by simp [h])
    refine .apart ?_
    simp [holdings,hw,hp,hN]

theorem wakes_iff : (∀ v ∈ N.queue, (v,x) ∈ (N.notifyOne x).woken) ↔
    ∀ v ∈ N.queue, ∀ v' ∈ N.queue, v = v' := by
  cases h : N.queue with
  | nil => simp
  | cons w ws =>
    obtain ⟨-,hw,-⟩ := notifyOne_cons (x := x) h
    constructor
    · intro hall
      have honly : ∀ v ∈ w :: ws, v = w := by
        intro v hv
        have hx := hall v hv
        rw [hw,List.mem_cons] at hx
        rcases hx with hx | hx
        · exact congrArg Prod.fst hx
        · exact absurd hx (queue_not_woken (h ▸ hv) x)
      intro v hv v' hv'
      rw [honly v hv,honly v' hv']
    · intro hone v hv
      have heq : v = w := hone v hv w List.mem_cons_self
      rw [heq,hw]
      exact List.mem_cons_self

end NotifyOne

variable [DecidableEq W]

def assigned (N : Notify W τ) (w : W) : Option τ := N.woken.lookup w

def forget (N : Notify W τ) (w : W) : Notify W τ where
  permit := N.permit
  queue := N.queue.erase w
  woken := N.woken.filter (fun y => y.1 ≠ w)
  distinct := N.distinct.sublist (List.erase_sublist.append (List.filter_sublist.map Prod.fst))
  idle h := N.idle (by
    rintro hq
    simp [hq] at h)

def surrender (N : Notify W τ) : Notify W τ where
  permit := none
  queue := N.queue
  woken := N.woken
  distinct := N.distinct
  idle _ := rfl

def enrol (N : Notify W τ) (w : W) (hw : w ∉ N.members) : Notify W τ where
  permit := none
  queue := N.queue ++ [w]
  woken := N.woken
  distinct := by
    rw [List.append_assoc]
    exact List.nodup_middle.mpr (List.nodup_cons.mpr ⟨hw,N.distinct⟩)
  idle _ := rfl

def poll (N : Notify W τ) (w : W) : Option τ × Notify W τ :=
  match N.assigned w with
  | some x => (some x,N.forget w)
  | none =>
    if hw : w ∈ N.members then (none,N)
    else
      match N.permit with
      | some x => (some x,N.surrender)
      | none => (none,N.enrol w hw)

def abandon [Add τ] (N : Notify W τ) (w : W) : Notify W τ :=
  match N.assigned w with
  | some x => (N.forget w).notifyOne x
  | none => N.forget w

section Lists

variable {w : W} {x : τ} {l : List (W × τ)}

theorem filter_absent (h : l.lookup w = none) : l.filter (fun y => y.1 ≠ w) = l := by
  rw [List.filter_eq_self]
  intro y hy
  have hne : (w != y.1) = true := List.lookup_eq_none_iff.mp h y hy
  have hne' : y.1 ≠ w := Ne.symm (bne_iff_ne.mp hne)
  simp [hne']

theorem split_lookup (hl : (l.map Prod.fst).Nodup) (h : l.lookup w = some x) :
    (l.map Prod.snd : Multiset τ) = x ::ₘ ((l.filter (fun y => y.1 ≠ w)).map Prod.snd : List τ) := by
  induction l with
  | nil => simp at h
  | cons y l ih =>
    obtain ⟨v,z⟩ := y
    simp only [List.map_cons,List.nodup_cons] at hl
    by_cases hv : w = v
    · subst hv
      have hz : z = x := by simpa [List.lookup_cons] using h
      have hnone : l.lookup w = none := by
        rw [List.lookup_eq_none_iff]
        intro y hy
        have hne : w ≠ y.1 := fun heq => hl.1 (List.mem_map.mpr ⟨y,hy,heq.symm⟩)
        simpa using hne
      rw [List.filter_cons_of_neg (by simp),filter_absent hnone,hz]
      rfl
    · have hb : (w == v) = false := by simp [hv]
      rw [List.lookup_cons,hb] at h
      have hrest := ih hl.2 h
      rw [List.filter_cons_of_pos (by simpa using Ne.symm hv)]
      simp only [List.map_cons,← Multiset.cons_coe,hrest]
      exact Multiset.cons_swap z x _

end Lists

section Forget

theorem mem_forget : v ∈ (N.forget w).members ↔ v ∈ N.members ∧ v ≠ w := by
  have hq : N.queue.Nodup := (List.nodup_append.mp N.distinct).1
  have hqueue : v ∈ N.queue.erase w ↔ v ≠ w ∧ v ∈ N.queue := hq.mem_erase_iff
  simp only [mem_members,forget,hqueue,List.mem_filter,decide_eq_true_eq]
  constructor
  · rintro (⟨hne,hv⟩ | ⟨x,hx,hne⟩)
    · exact ⟨.inl hv,hne⟩
    · exact ⟨.inr ⟨x,hx⟩,hne⟩
  · rintro ⟨hv | ⟨x,hx⟩,hne⟩
    · exact .inl ⟨hne,hv⟩
    · exact .inr ⟨x,hx,hne⟩

theorem holdings_forget_some (h : N.assigned w = some x) :
    N.holdings = x ::ₘ (N.forget w).holdings := by
  simp only [holdings,forget,split_lookup N.keys_nodup h]
  rw [Multiset.add_cons]

theorem holdings_forget_none (h : N.assigned w = none) : (N.forget w).holdings = N.holdings := by
  simp only [holdings,forget,filter_absent h]

end Forget

section Poll

theorem poll_pending {N' : Notify W τ} (h : N.poll w = (none,N')) :
    N'.holdings = N.holdings ∧ ∀ v, v ∈ N'.members ↔ v ∈ N.members ∨ v = w := by
  unfold poll at h
  split at h
  · simp at h
  · split_ifs at h with hw
    · cases h
      refine ⟨rfl,?_⟩
      intro v
      constructor
      · exact .inl
      · rintro (hv | rfl)
        · exact hv
        · exact hw
    · split at h
      · simp at h
      · next hp =>
        cases h
        refine ⟨?_,?_⟩
        · simp [holdings,enrol,hp]
        · intro v
          simp only [mem_members,enrol,List.mem_append,List.mem_singleton]
          tauto

theorem poll_ready {N' : Notify W τ} (h : N.poll w = (some x,N')) :
    N.holdings = x ::ₘ N'.holdings ∧ ∀ v, v ∈ N'.members ↔ v ∈ N.members ∧ v ≠ w := by
  unfold poll at h
  split at h
  · next y hy =>
    simp only [Prod.mk.injEq,Option.some.injEq] at h
    obtain ⟨rfl,rfl⟩ := h
    exact ⟨holdings_forget_some hy,fun v => mem_forget⟩
  · split_ifs at h with hw
    · simp at h
    · split at h
      · next y hp =>
        simp only [Prod.mk.injEq,Option.some.injEq] at h
        obtain ⟨rfl,rfl⟩ := h
        refine ⟨?_,?_⟩
        · simp [holdings,surrender,hp]
        · intro v
          constructor
          · intro hv
            refine ⟨hv,?_⟩
            rintro rfl
            exact hw hv
          · exact And.left
      · simp at h

end Poll

section Abandon

variable [Add τ]

theorem mem_abandon : v ∈ (N.abandon w).members ↔ v ∈ N.members ∧ v ≠ w := by
  unfold abandon
  split
  · rw [mem_notifyOne,mem_forget]
  · exact mem_forget

theorem abandon_absorbs : (N.abandon w).holdings = N.holdings ∨
    ∃ x, N.holdings = x ::ₘ (N.forget w).holdings ∧ Absorbs (N.forget w) (N.abandon w) x := by
  unfold abandon
  split
  · next x hx => exact .inr ⟨x,holdings_forget_some hx,notifyOne_absorbs _ x⟩
  · next hx => exact .inl (holdings_forget_none hx)

theorem abandon_empty (w : W) (h : N.holdings = 0) : (N.abandon w).holdings = 0 := by
  rcases abandon_absorbs (N := N) (w := w) with hs | ⟨x,hx,-⟩
  · rw [hs,h]
  · cases Multiset.cons_ne_zero (hx.symm.trans h)

end Abandon

end Notify

end Interaction
