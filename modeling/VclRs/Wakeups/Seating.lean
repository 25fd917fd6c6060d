import VclRs.Wakeups.Ledger

namespace VclRs

open Interaction

structure Seated (r : VclReactor) (R : Runtime) : Prop where
  proper : ∀ (i : ℕ) f, R.futures[i]? = some f → Proper r R.entries f
  seats : ∀ n w, w ∈ (R.notifies n).members →
    ∃ e o k, R.futures[w]? = some ⟨e,.awaiting o k⟩ ∧ awaited o = some n
  paid : ∀ n i x, (i,x) ∈ R.consumed n →
    ∃ sh m t, n = sh.toNat ∧ R.futures[i]? = some ⟨.wait sh m t,.running (.ret (.ok ()))⟩

section Frames

variable {r : VclReactor} {R R' : Runtime} {i j w : ℕ} {f g : Future} {n : NotifyId}
variable {e : Errand} {o : Call} {k : Reply o → Code} {x : Multiset Token}

theorem set_self (h : R.futures[i]? = some f) : (R.futures.set i g)[i]? = some g := by
  obtain ⟨hlt,-⟩ := List.getElem?_eq_some_iff.mp h
  exact List.getElem?_set_self hlt

theorem set_other (h : j ≠ i) : (R.futures.set i g)[j]? = R.futures[j]? :=
  List.getElem?_set_ne (Ne.symm h)

theorem set_proper {entries : NotifyId → Bool} (h : R.futures[i]? = some f)
    (hall : ∀ (j : ℕ) f, R.futures[j]? = some f → Proper r entries f) (hg : Proper r entries g) :
    ∀ (j : ℕ) f, (R.futures.set i g)[j]? = some f → Proper r entries f := by
  intro j f' hf'
  by_cases hj : j = i
  · subst hj
    rw [set_self h] at hf'
    cases hf'
    exact hg
  · rw [set_other hj] at hf'
    exact hall j f' hf'

theorem perform_entries (o : Call) (h : R.entries n = true) : (R.perform o).entries n = true := by
  cases o with
  | waitersEntry v sh =>
    change Function.update R.entries sh.toNat true n = true
    rw [Function.update_apply]
    split_ifs
    · rfl
    · exact h
  | _ => exact h

theorem perform_members (o : Call) :
    w ∈ ((R.perform o).notifies n).members ↔ w ∈ (R.notifies n).members := by
  have hpost (targets : NotifyId → Bool) :
      w ∈ ((R.post targets).notifies n).members ↔ w ∈ (R.notifies n).members := by
    change w ∈ (if _ then _ else _ : Notify ℕ (Multiset Token)).members ↔ _
    split_ifs
    · exact Notify.mem_notifyOne
    · rfl
  cases o with
  | notifyOne v sh => exact hpost _
  | notifyEvery v => exact hpost _
  | _ => exact Iff.rfl

theorem perform_consumed (o : Call) : (R.perform o).consumed = R.consumed := by
  cases o <;> rfl

theorem perform_futures (o : Call) : (R.perform o).futures = R.futures := by
  cases o <;> rfl

theorem seat_not_running {p : Code} (hs : Seated r R) (hw : w ∈ (R.notifies n).members)
    (hf : R.futures[i]? = some ⟨e,.running p⟩) : w ≠ i := by
  rintro rfl
  obtain ⟨e',o',k',hw',-⟩ := hs.seats n w hw
  rw [hf] at hw'
  cases hw'

theorem seat_other {m : NotifyId} (hs : Seated r R) (hw : w ∈ (R.notifies m).members)
    (hf : R.futures[i]? = some ⟨e,.awaiting o k⟩) (ho : awaited o = some n) (hm : m ≠ n) :
    w ≠ i := by
  rintro rfl
  obtain ⟨e',o',k',hw',ho'⟩ := hs.seats m w hw
  rw [hf] at hw'
  cases hw'
  rw [ho,Option.some.injEq] at ho'
  exact hm ho'.symm

theorem paid_not_head {p : Code} (hs : Seated r R) (hx : (j,x) ∈ R.consumed n)
    (hf : R.futures[i]? = some ⟨e,.running p⟩) (hp : p.Head o k) : j ≠ i := by
  rintro rfl
  obtain ⟨sh,m,t,-,hj⟩ := hs.paid n j x hx
  rw [hf] at hj
  cases hj
  cases hp

theorem paid_not_awaiting (hs : Seated r R) (hx : (j,x) ∈ R.consumed n)
    (hf : R.futures[i]? = some ⟨e,.awaiting o k⟩) : j ≠ i := by
  rintro rfl
  obtain ⟨sh,m,t,-,hj⟩ := hs.paid n j x hx
  rw [hf] at hj
  cases hj

theorem seats_set (hs : Seated r R)
    (hw : ∀ n w, w ∈ (R'.notifies n).members → w ∈ (R.notifies n).members ∧ w ≠ i)
    (hR' : R'.futures = R.futures.set i g) : ∀ n w, w ∈ (R'.notifies n).members →
      ∃ e o k, R'.futures[w]? = some ⟨e,.awaiting o k⟩ ∧ awaited o = some n := by
  intro n w hmem
  obtain ⟨hold,hne⟩ := hw n w hmem
  obtain ⟨e,o,k,hf,ho⟩ := hs.seats n w hold
  refine ⟨e,o,k,?_,ho⟩
  rw [hR',set_other hne]
  exact hf

theorem paid_set (hs : Seated r R) (hx : ∀ n j x, (j,x) ∈ R.consumed n → j ≠ i) :
    ∀ n j x, (j,x) ∈ R.consumed n → ∃ sh m t, n = sh.toNat ∧
      (R.futures.set i g)[j]? = some ⟨.wait sh m t,.running (.ret (.ok ()))⟩ := by
  intro n j x hmem
  obtain ⟨sh,m,t,hn,hf⟩ := hs.paid n j x hmem
  refine ⟨sh,m,t,hn,?_⟩
  rw [set_other (hx n j x hmem)]
  exact hf

end Frames

section Steps

variable {r : VclReactor} {R R' : Runtime} {i : ℕ} {n : NotifyId} {e : Errand} {p : Code}
variable {o : Call} {k : Reply o → Code}

theorem spawn_seated (hs : Seated r R) (e : Errand) :
    Seated r { R with futures := R.futures ++ [⟨e,.running (e.code r)⟩] } := by
  have hkeep {j : ℕ} {f : Future} (hf : R.futures[j]? = some f) :
      (R.futures ++ [⟨e,.running (e.code r)⟩])[j]? = some f := by
    obtain ⟨hlt,-⟩ := List.getElem?_eq_some_iff.mp hf
    rw [List.getElem?_append_left hlt]
    exact hf
  constructor
  · intro j f hf
    rcases List.mem_append.mp (List.mem_of_getElem? hf) with hold | hnew
    · obtain ⟨j',hj'⟩ := List.getElem?_of_mem hold
      exact hs.proper j' f hj'
    · rw [List.mem_singleton.mp hnew]
      exact .fresh e
  · intro n w hw
    obtain ⟨e',o,k,hf,ho⟩ := hs.seats n w hw
    exact ⟨e',o,k,hkeep hf,ho⟩
  · intro n j x hx
    obtain ⟨sh,m,t,hn,hf⟩ := hs.paid n j x hx
    exact ⟨sh,m,t,hn,hkeep hf⟩

theorem call_seated (hs : Seated r R) (hf : R.futures[i]? = some ⟨e,.running p⟩) (hp : p.Head o k)
    (ho : awaited o = none) {a : Reply o} (ha : Faithful ⟨o,a⟩) :
    Seated r ((R.perform o).resume i ⟨e,.running (k a)⟩) := by
  have hentries (n : NotifyId) (h : R.entries n = true) : (R.perform o).entries n = true :=
    perform_entries o h
  have hfutures : ((R.perform o).resume i ⟨e,.running (k a)⟩).futures =
      R.futures.set i ⟨e,.running (k a)⟩ := by
    rw [Runtime.resume,perform_futures]
  have hconsumed : ((R.perform o).resume i ⟨e,.running (k a)⟩).consumed = R.consumed :=
    perform_consumed o
  constructor
  · rw [hfutures]
    apply set_proper hf
    · intro j f hj
      exact proper_mono hentries (hs.proper j f hj)
    · exact proper_call (hs.proper i _ hf) hp ho ha hentries
  · apply seats_set hs _ hfutures
    intro n w hw
    have hold : w ∈ (R.notifies n).members := (perform_members o).mp hw
    exact ⟨hold,seat_not_running hs hold hf⟩
  · rw [hfutures,hconsumed]
    apply paid_set hs
    intro n j x hx
    exact paid_not_head hs hx hf hp

theorem arrive_seated (hs : Seated r R) (hf : R.futures[i]? = some ⟨e,.running p⟩)
    (hp : p.Head o k) (ho : awaited o = some n) : Seated r (R.resume i ⟨e,.awaiting o k⟩) := by
  constructor
  · exact set_proper hf hs.proper (proper_arrive (hs.proper i _ hf) hp ho)
  · apply seats_set hs _ rfl
    intro n w hw
    exact ⟨hw,seat_not_running hs hw hf⟩
  · apply paid_set hs
    intro n j x hx
    exact paid_not_head hs hx hf hp

theorem pending_seated {N : Notify ℕ (Multiset Token)} (hs : Seated r R)
    (hf : R.futures[i]? = some ⟨e,.awaiting o k⟩) (ho : awaited o = some n)
    (hN : (R.notifies n).poll i = (none,N)) : Seated r (R.settle n N) := by
  constructor
  · exact hs.proper
  · intro m w hw
    by_cases hm : m = n
    · subst hm
      rw [settle_self,(Notify.poll_pending hN).2] at hw
      rcases hw with hw | rfl
      · exact hs.seats m w hw
      · exact ⟨e,o,k,hf,ho⟩
    · rw [settle_other hm] at hw
      exact hs.seats m w hw
  · exact hs.paid

theorem settle_unseats {N : Notify ℕ (Multiset Token)} (hs : Seated r R)
    (hf : R.futures[i]? = some ⟨e,.awaiting o k⟩) (ho : awaited o = some n)
    (hN : ∀ w, w ∈ N.members ↔ w ∈ (R.notifies n).members ∧ w ≠ i) :
    ∀ m w, w ∈ ((R.settle n N).notifies m).members → w ∈ (R.notifies m).members ∧ w ≠ i := by
  intro m w hw
  by_cases hm : m = n
  · subst hm
    rw [settle_self] at hw
    exact (hN w).mp hw
  · rw [settle_other hm] at hw
    exact ⟨hw,seat_other hs hw hf ho hm⟩

theorem notified_seated {N : Notify ℕ (Multiset Token)} {x : Multiset Token} (hs : Seated r R)
    (hf : R.futures[i]? = some ⟨e,.awaiting o k⟩) (ho : awaited o = some n)
    (hN : (R.notifies n).poll i = (some x,N)) {a : Reply o} (ha : heard ⟨o,a⟩ = true) :
    Seated r (((R.settle n N).consume n i x).resume i ⟨e,.running (k a)⟩) := by
  obtain ⟨sh,m,t,rfl,rfl,-,hret⟩ := proper_awaiting (hs.proper i _ hf) ho
  constructor
  · exact set_proper hf hs.proper (proper_resume (hs.proper i _ hf) a)
  · exact seats_set hs (settle_unseats hs hf ho (Notify.poll_ready hN).2) rfl
  · intro n' j y hy
    change (j,y) ∈ Function.update R.consumed sh.toNat ((i,x) :: R.consumed sh.toNat) n' at hy
    have hold (hy : (j,y) ∈ R.consumed n') := paid_set (g := ⟨.wait sh m t,.running (k a)⟩) hs
      (fun _ _ _ hx => paid_not_awaiting hs hx hf) n' j y hy
    by_cases hn : n' = sh.toNat
    · subst hn
      rw [Function.update_self,List.mem_cons] at hy
      rcases hy with hy | hy
      · cases hy
        refine ⟨sh,m,t,rfl,?_⟩
        rw [← hret a ha]
        exact set_self hf
      · exact hold hy
    · rw [Function.update_of_ne hn] at hy
      exact hold hy

theorem lost_seated (hs : Seated r R) (hf : R.futures[i]? = some ⟨e,.awaiting o k⟩)
    (ho : awaited o = some n) (a : Reply o) :
    Seated r ((R.settle n ((R.notifies n).abandon i)).resume i ⟨e,.running (k a)⟩) := by
  constructor
  · exact set_proper hf hs.proper (proper_resume (hs.proper i _ hf) a)
  · exact seats_set hs (settle_unseats hs hf ho (fun w => Notify.mem_abandon)) rfl
  · apply paid_set hs
    intro n j x hx
    exact paid_not_awaiting hs hx hf

theorem step_seated (h : Step r R R') (hs : Seated r R) : Seated r R' := by
  cases h with
  | spawn e => exact spawn_seated hs e
  | call hf hp ho a ha => exact call_seated hs hf hp ho ha
  | arrive hf hp ho => exact arrive_seated hs hf hp ho
  | pending hf ho hN => exact pending_seated hs hf ho hN
  | notified hf ho hN a ha => exact notified_seated hs hf ho hN ha
  | lost hf ho a ha hpolled => exact lost_seated hs hf ho a

theorem idle_seated : Seated r .idle := by
  constructor
  · intro i f hf
    simp [Runtime.idle] at hf
  · intro n w hw
    simp [Runtime.idle,Notify.members,Notify.new] at hw
  · intro n i x hx
    simp [Runtime.idle] at hx

theorem later_seated (h : Later r R R') (hs : Seated r R) : Seated r R' := by
  induction h with
  | refl => exact hs
  | tail _ hstep ih => exact step_seated hstep ih

end Steps

end VclRs
