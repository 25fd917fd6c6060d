import VclRs.Wakeups.Manners

namespace VclRs

open Interaction

inductive Handover (R R' : Runtime) (n : NotifyId) : Prop
  | kept (hp : R'.posted n = R.posted n) (h : R'.holdings n = R.holdings n)
  | posted (hp : R'.posted n = (n,R.posts) ::ₘ R.posted n) (hc : R'.posts = R.posts + 1)
      (h : R'.holdings n = {(n,R.posts)} ::ₘ R.holdings n)
  | merged (y : Multiset Token) (rest : Multiset (Multiset Token))
      (hp : R'.posted n = (n,R.posts) ::ₘ R.posted n) (hc : R'.posts = R.posts + 1)
      (hy : (R.notifies n).permit = some y)
      (hy' : (R'.notifies n).permit = some (y + {(n,R.posts)}))
      (h : R.holdings n = y ::ₘ rest) (h' : R'.holdings n = (y + {(n,R.posts)}) ::ₘ rest)
  | forwarded (x y : Multiset Token) (rest : Multiset (Multiset Token))
      (hp : R'.posted n = R.posted n) (hy : (R.notifies n).permit = some y)
      (hy' : (R'.notifies n).permit = some (y + x))
      (h : R.holdings n = x ::ₘ y ::ₘ rest) (h' : R'.holdings n = (y + x) ::ₘ rest)

section Steps

variable {r : VclReactor} {R R' : Runtime} {n : NotifyId}

theorem post_handover (targets : NotifyId → Bool) : Handover R (R.post targets) n := by
  by_cases hn : (R.entries n && targets n) = true
  · have hposted : (R.post targets).posted n = (n,R.posts) ::ₘ R.posted n := if_pos hn
    have hnotify : (R.post targets).notifies n = (R.notifies n).notifyOne {(n,R.posts)} := if_pos hn
    cases Notify.notifyOne_absorbs (R.notifies n) {(n,R.posts)} with
    | apart h =>
      refine .posted hposted rfl ?_
      rw [Runtime.holdings,hnotify,h,Multiset.cons_add]
      rfl
    | merged y rest hy hy' h h' =>
      refine .merged y (rest + (R.consumed n).map Prod.snd) hposted rfl hy ?_ ?_ ?_
      · rw [hnotify,hy']
      · rw [Runtime.holdings,h,Multiset.cons_add]
      · rw [Runtime.holdings,hnotify,h',Multiset.cons_add]
        rfl
  · have hposted : (R.post targets).posted n = R.posted n := if_neg hn
    have hnotify : (R.post targets).notifies n = R.notifies n := if_neg hn
    refine .kept hposted ?_
    rw [Runtime.holdings,hnotify]
    rfl

theorem perform_handover (o : Call) : Handover R (R.perform o) n := by
  cases o with
  | notifyOne v sh => exact post_handover _
  | notifyEvery v => exact post_handover _
  | _ => exact .kept rfl rfl

theorem settle_self (N : Notify ℕ (Multiset Token)) : (R.settle n N).notifies n = N :=
  Function.update_self _ _ _

theorem settle_other {m : NotifyId} (h : n ≠ m) (N : Notify ℕ (Multiset Token)) :
    (R.settle m N).notifies n = R.notifies n := Function.update_of_ne h _ _

theorem settle_handover {m : NotifyId} {N : Notify ℕ (Multiset Token)}
    (h : Handover R (R.settle m N) m) : Handover R (R.settle m N) n := by
  by_cases hn : n = m
  · rw [hn]
    exact h
  · refine .kept rfl ?_
    rw [Runtime.holdings,settle_other hn]
    rfl

theorem abandon_handover (i : ℕ) :
    Handover R (R.settle n ((R.notifies n).abandon i)) n := by
  rcases Notify.abandon_absorbs (N := R.notifies n) (w := i) with h | ⟨x,hx,h⟩
  · refine .kept rfl ?_
    rw [Runtime.holdings,settle_self,h]
    rfl
  · cases h with
    | apart h =>
      refine .kept rfl ?_
      rw [Runtime.holdings,settle_self,h,← hx]
      rfl
    | merged y rest hy hy' h h' =>
      refine .forwarded x y (rest + (R.consumed n).map Prod.snd) rfl hy ?_ ?_ ?_
      · rw [settle_self,hy']
      · rw [Runtime.holdings,hx,h,Multiset.cons_add,Multiset.cons_add]
      · rw [Runtime.holdings,settle_self,h',Multiset.cons_add]
        rfl

theorem consume_handover {m : NotifyId} {i : ℕ} {x : Multiset Token}
    {N : Notify ℕ (Multiset Token)} (hx : (R.notifies m).holdings = x ::ₘ N.holdings) :
    Handover R ((R.settle m N).consume m i x) n := by
  refine .kept rfl ?_
  by_cases hn : n = m
  · subst hn
    have hc : ((R.settle n N).consume n i x).consumed n = (i,x) :: R.consumed n :=
      Function.update_self _ _ _
    have hnotify : ((R.settle n N).consume n i x).notifies n = N := settle_self N
    rw [Runtime.holdings,Runtime.holdings,hc,hnotify,hx,List.map_cons,← Multiset.cons_coe,
      Multiset.add_cons,Multiset.cons_add]
  · have hc : ((R.settle m N).consume m i x).consumed n = R.consumed n :=
      Function.update_of_ne hn _ _
    have hnotify : ((R.settle m N).consume m i x).notifies n = R.notifies n := settle_other hn N
    rw [Runtime.holdings,Runtime.holdings,hc,hnotify]

theorem resume_handover {i : ℕ} {f : Future} (h : Handover R R' n) :
    Handover R (R'.resume i f) n := by
  cases h with
  | kept hp h => exact .kept hp h
  | posted hp hc h => exact .posted hp hc h
  | merged y rest hp hc hy hy' h h' => exact .merged y rest hp hc hy hy' h h'
  | forwarded x y rest hp hy hy' h h' => exact .forwarded x y rest hp hy hy' h h'

theorem step_handover (h : Step r R R') (n : NotifyId) : Handover R R' n := by
  cases h with
  | spawn e => exact .kept rfl rfl
  | call hf hp ho a ha => exact resume_handover (perform_handover _)
  | arrive hf hp ho => exact .kept rfl rfl
  | pending hf ho hN =>
    apply settle_handover
    refine .kept rfl ?_
    rw [Runtime.holdings,settle_self,(Notify.poll_pending hN).1]
    rfl
  | notified hf ho hN a ha => exact resume_handover (consume_handover (Notify.poll_ready hN).1)
  | lost hf ho a ha hpolled => exact resume_handover (settle_handover (abandon_handover _))

theorem perform_posts (o : Call) : R.posts ≤ (R.perform o).posts := by
  cases o with
  | notifyOne v sh => exact Nat.le_succ _
  | notifyEvery v => exact Nat.le_succ _
  | _ => exact le_rfl

theorem step_posts (h : Step r R R') : R.posts ≤ R'.posts := by
  cases h with
  | call hf hp ho a ha => exact perform_posts _
  | _ => exact le_rfl

end Steps

structure Balanced (R : Runtime) (n : NotifyId) : Prop where
  sum : R.posted n = (R.holdings n).sum
  own : ∀ x ∈ R.posted n, x.1 = n ∧ x.2 < R.posts
  nodup : (R.posted n).Nodup

section Balance

variable {r : VclReactor} {R R' : Runtime} {n : NotifyId}

theorem handover_sum (h : Handover R R' n) (hb : R.posted n = (R.holdings n).sum) :
    R'.posted n = (R'.holdings n).sum := by
  cases h with
  | kept hp h => rw [hp,h,hb]
  | posted hp hc h => rw [hp,h,Multiset.sum_cons,← hb,Multiset.singleton_add]
  | merged y rest hp hc hy hy' h h' =>
    rw [hp,h',hb,h,Multiset.sum_cons,Multiset.sum_cons,← Multiset.singleton_add,← add_assoc,
      add_comm y]
  | forwarded x y rest hp hy hy' h h' =>
    rw [hp,h',hb,h,Multiset.sum_cons,Multiset.sum_cons,Multiset.sum_cons,← add_assoc,add_comm x]

theorem handover_posted (h : Handover R R' n) : R'.posted n = R.posted n ∨
    R'.posted n = (n,R.posts) ::ₘ R.posted n ∧ R'.posts = R.posts + 1 := by
  cases h with
  | kept hp h => exact .inl hp
  | posted hp hc h => exact .inr ⟨hp,hc⟩
  | merged y rest hp hc => exact .inr ⟨hp,hc⟩
  | forwarded x y rest hp => exact .inl hp

theorem step_balanced (h : Step r R R') (hb : Balanced R n) : Balanced R' n := by
  have hsum := handover_sum (step_handover h n) hb.sum
  have hposts := step_posts h
  have hold : ∀ x ∈ R.posted n, x.1 = n ∧ x.2 < R'.posts := by
    intro x hx
    obtain ⟨hn,hlt⟩ := hb.own x hx
    exact ⟨hn,lt_of_lt_of_le hlt hposts⟩
  rcases handover_posted (step_handover h n) with hp | ⟨hp,hc⟩
  · refine ⟨hsum,?_,?_⟩
    · rw [hp]
      exact hold
    · rw [hp]
      exact hb.nodup
  · refine ⟨hsum,?_,?_⟩
    · intro x hx
      rw [hp,Multiset.mem_cons] at hx
      rcases hx with rfl | hx
      · exact ⟨rfl,by omega⟩
      · exact hold x hx
    · rw [hp,Multiset.nodup_cons]
      refine ⟨?_,hb.nodup⟩
      intro hmem
      exact absurd (hb.own _ hmem).2 (lt_irrefl _)

theorem later_balanced (h : Later r R R') (hb : Balanced R n) : Balanced R' n := by
  induction h with
  | refl => exact hb
  | tail _ hstep ih => exact step_balanced hstep ih

theorem later_posted (h : Later r R R') : R.posted n ≤ R'.posted n := by
  induction h with
  | refl => exact le_rfl
  | @tail R₁ R₂ _ hstep ih =>
    rcases handover_posted (step_handover hstep n) with hp | ⟨hp,-⟩
    · rw [hp]
      exact ih
    · rw [hp]
      exact ih.trans (Multiset.le_cons_self _ _)

theorem idle_balanced : Balanced .idle n := ⟨rfl,by simp [Runtime.idle],Multiset.nodup_zero⟩

end Balance

end VclRs
