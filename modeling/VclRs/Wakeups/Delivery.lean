import Mathlib.Data.Multiset.Bind
import VclRs.Schedule
import VclRs.Wakeups.Play
import VclRs.Wakeups.Seating

namespace VclRs

open Interaction

def Parked (R : Runtime) (s : Handle) (w : ℕ) : Prop :=
  w ∈ (R.notifies s.toNat).queue ∧ ∃ m t o k, R.futures[w]? = some ⟨.wait s m t,.awaiting o k⟩

def WokenBy (R : Runtime) (s : Handle) (x : Token) (w : ℕ) : Prop :=
  (w,{x}) ∈ (R.notifies s.toNat).woken

inductive Processes (R : Runtime) (s : Handle) : Runtime → Prop
  | event {i : ℕ} {e : Errand} {p : Code} {v : Handle} {k : Unit → Code}
      (hf : R.futures[i]? = some ⟨e,.running p⟩) (hp : p.Head (.notifyOne v s) k) :
      Processes R s ((R.perform (.notifyOne v s)).resume i ⟨e,.running (k ())⟩)

def Heeded (R : Runtime) (s : Handle) (R' : Runtime) : Prop :=
  ∀ w, Parked R s w → WokenBy R' s (s.toNat,R.posts) w ∧ ¬ Parked R' s w

def Held (R : Runtime) (s : Handle) (x : Token) : Prop :=
  (∃ c, (R.notifies s.toNat).permit = some c ∧ x ∈ c) ∨
    ∃ w c m t o k, (w,c) ∈ (R.notifies s.toNat).woken ∧ x ∈ c ∧
      R.futures[w]? = some ⟨.wait s m t,.awaiting o k⟩

def ConsumedOk (R : Runtime) (s : Handle) (x : Token) : Prop :=
  ∃ i c m t, (i,c) ∈ R.consumed s.toNat ∧ x ∈ c ∧
    R.futures[i]? = some ⟨.wait s m t,.running (.ret (.ok ()))⟩

section Delivery

variable {r : VclReactor} {R R' : Runtime} {s : Handle}

theorem seat_wait {w : ℕ} (hs : Seated r R) (hw : w ∈ (R.notifies s.toNat).members) :
    R.entries s.toNat = true ∧ ∃ m t o k, R.futures[w]? = some ⟨.wait s m t,.awaiting o k⟩ := by
  obtain ⟨e,o,k,hf,ho⟩ := hs.seats _ w hw
  obtain ⟨sh,m,t,rfl,hsh,he,-⟩ := proper_awaiting (hs.proper w _ hf) ho
  have heq : s = sh := UInt32.toNat_inj.mp hsh
  subst heq
  exact ⟨he,m,t,o,k,hf⟩

theorem parked_iff {w : ℕ} (hs : Seated r R) : Parked R s w ↔ w ∈ (R.notifies s.toNat).queue := by
  constructor
  · exact And.left
  · intro hw
    exact ⟨hw,(seat_wait hs (Notify.mem_members.mpr (.inl hw))).2⟩

theorem processes_notifies (hp : Processes R s R') (he : R.entries s.toNat = true) :
    R'.notifies s.toNat = (R.notifies s.toNat).notifyOne {(s.toNat,R.posts)} := by
  cases hp with
  | event hf hp =>
    change (if _ then _ else _) = _
    rw [he]
    simp

theorem woken_not_parked {x : Token} {w : ℕ} (h : WokenBy R s x w) : ¬ Parked R s w := by
  intro hparked
  exact Notify.queue_not_woken hparked.1 {x} h

theorem heeded_iff (hR : Later r .idle R) (hp : Processes R s R') :
    Heeded R s R' ↔ ∀ w w', Parked R s w → Parked R s w' → w = w' := by
  have hs : Seated r R := later_seated hR idle_seated
  have hwoken : Heeded R s R' ↔ ∀ w, Parked R s w → WokenBy R' s (s.toNat,R.posts) w := by
    constructor
    · intro h w hw
      exact (h w hw).1
    · intro h w hw
      exact ⟨h w hw,woken_not_parked (h w hw)⟩
  rw [hwoken]
  simp only [parked_iff hs]
  by_cases he : R.entries s.toNat = true
  · simp only [WokenBy,processes_notifies hp he]
    rw [Notify.wakes_iff]
    constructor
    · intro h w w' hw hw'
      exact h w hw w' hw'
    · intro h w hw w' hw'
      exact h w w' hw hw'
  · have hempty (w : ℕ) : w ∉ (R.notifies s.toNat).queue := by
      intro hw
      exact he (seat_wait hs (Notify.mem_members.mpr (.inl hw))).1
    simp [hempty]

theorem events_wake_parked_iff {run : List Runtime} (hrun : Trail r .idle run) (s : Handle) :
    (∀ R R', [R,R'] <:+: .idle :: run → Processes R s R' → Heeded R s R') ↔
      ∀ R R', [R,R'] <:+: .idle :: run → Processes R s R' →
        ∀ w w', Parked R s w → Parked R s w' → w = w' := by
  have hreach {R R' : Runtime} (h : [R,R'] <:+: .idle :: run) : Later r .idle R :=
    trail_later hrun (h.subset List.mem_cons_self)
  constructor
  · intro h R R' hnext hp
    exact (heeded_iff (hreach hnext) hp).mp (h R R' hnext hp)
  · intro h R R' hnext hp
    exact (heeded_iff (hreach hnext) hp).mpr (h R R' hnext hp)

theorem token_placed {x : Token} (hs : Seated r R) (hx : x ∈ (R.holdings s.toNat).sum) :
    Held R s x ∨ ConsumedOk R s x := by
  obtain ⟨c,hc,hxc⟩ := Multiset.mem_join.mp hx
  rw [Runtime.holdings,Notify.holdings,Multiset.mem_add,Multiset.mem_add] at hc
  rcases hc with (hc | hc) | hc
  · refine .inl (.inl ⟨c,?_,hxc⟩)
    simpa using hc
  · obtain ⟨⟨w,c'⟩,hw,rfl⟩ := List.mem_map.mp (Multiset.mem_coe.mp hc)
    obtain ⟨-,m,t,o,k,hf⟩ := seat_wait hs (Notify.mem_members.mpr (.inr ⟨c',hw⟩))
    exact .inl (.inr ⟨w,c',m,t,o,k,hw,hxc,hf⟩)
  · obtain ⟨⟨i,c'⟩,hi,rfl⟩ := List.mem_map.mp (Multiset.mem_coe.mp hc)
    obtain ⟨sh,m,t,hsh,hf⟩ := hs.paid _ i c' hi
    have heq : s = sh := UInt32.toNat_inj.mp hsh
    subst heq
    exact .inr ⟨i,c',m,t,hi,hxc,hf⟩

theorem placed_token {x : Token} (h : Held R s x ∨ ConsumedOk R s x) :
    x ∈ (R.holdings s.toNat).sum := by
  have hjoin (c : Multiset Token) (hc : c ∈ R.holdings s.toNat) (hx : x ∈ c) :
      x ∈ (R.holdings s.toNat).sum := Multiset.mem_join.mpr ⟨c,hc,hx⟩
  rcases h with (⟨c,hc,hx⟩ | ⟨w,c,m,t,o,k,hw,hx,-⟩) | ⟨i,c,m,t,hi,hx,-⟩
  · apply hjoin c _ hx
    simp [Runtime.holdings,Notify.holdings,hc]
  · apply hjoin c _ hx
    rw [Runtime.holdings,Notify.holdings,Multiset.mem_add,Multiset.mem_add]
    exact .inl (.inr (Multiset.mem_coe.mpr (List.mem_map.mpr ⟨(w,c),hw,rfl⟩)))
  · apply hjoin c _ hx
    rw [Runtime.holdings,Multiset.mem_add]
    exact .inr (Multiset.mem_coe.mpr (List.mem_map.mpr ⟨(i,c),hi,rfl⟩))

theorem notifications_conserved (hR : Later r .idle R) (hR' : Later r R R') (s : Handle) :
    (∀ x ∈ R.posted s.toNat, (Held R' s x ∨ ConsumedOk R' s x) ∧
      ∀ s', s' ≠ s → ¬ Held R' s' x ∧ ¬ ConsumedOk R' s' x) ∧
    (∀ (i : ℕ) e p stop, R'.futures[i]? = some ⟨e,.running p⟩ → p.Returns (.error stop) →
      ∀ c, (i,c) ∉ R'.consumed s.toNat) ∧
    R'.posted s.toNat = (R'.holdings s.toNat).sum ∧ (R'.posted s.toNat).Nodup ∧
    ∀ R'', Step r R' R'' → Handover R' R'' s.toNat := by
  have hreach : Later r .idle R' := hR.trans hR'
  have hs : Seated r R' := later_seated hreach idle_seated
  have hb (s' : Handle) : Balanced R' s'.toNat := later_balanced hreach idle_balanced
  have hmine (x : Token) (hx : x ∈ R.posted s.toNat) : x ∈ R'.posted s.toNat :=
    Multiset.mem_of_le (later_posted hR') hx
  have hforeign (x : Token) (hx : x ∈ R.posted s.toNat) (s' : Handle) (hne : s' ≠ s) :
      ¬ (Held R' s' x ∨ ConsumedOk R' s' x) := by
    intro hplaced
    have hx' : x ∈ R'.posted s'.toNat := by
      rw [(hb s').sum]
      exact placed_token hplaced
    have hid : s'.toNat = s.toNat := ((hb s').own x hx').1.symm.trans ((hb s).own x (hmine x hx)).1
    exact hne (UInt32.toNat_inj.mp hid)
  refine ⟨?_,?_,(hb s).sum,(hb s).nodup,?_⟩
  · intro x hx
    constructor
    · apply token_placed hs
      rw [← (hb s).sum]
      exact hmine x hx
    · intro s' hne
      exact not_or.mp (hforeign x hx s' hne)
  · intro i e p stop hf hret c hc
    obtain ⟨sh,m,t,-,hf'⟩ := hs.paid _ i c hc
    rw [hf] at hf'
    cases hf'
    cases hret
  · intro R'' hstep
    exact step_handover hstep s.toNat

end Delivery

theorem processes_step {r : VclReactor} {R R' : Runtime} {s : Handle} (h : Processes R s R') :
    Step r R R' := by
  cases h with
  | event hf hp => exact .call hf hp rfl () trivial

def processing (R : Runtime) (i : ℕ) (s : Handle) : Bool :=
  match R.futures[i]? with
  | some ⟨_,.running p⟩ =>
    match p.expose 4 with
    | some ⟨.notifyOne _ sh,_⟩ => sh = s
    | _ => false
  | _ => false

theorem processing_processes {R : Runtime} {i : ℕ} {s : Handle} (h : processing R i s = true) :
    ∃ R', Processes R s R' := by
  unfold processing at h
  split at h
  · next e p hf =>
    split at h
    · next v sh k hp =>
      obtain rfl : sh = s := of_decide_eq_true h
      exact ⟨_,.event hf (Prog.expose_head hp)⟩
    · cases h
  · cases h

def ready : (c : Call) → Reply c
  | .waitersEntry _ sh => sh.toNat
  | .epollWait _ _ _ => ((1 : Int),[⟨epollin ||| epollout,5⟩])
  | c => obliging c

def parks (i : ℕ) (eventMask : UInt32) : List Move :=
  [.spawn (.wait 5 eventMask (secs 300)),.call i ready,.call i ready,.arrive i,.poll i ready]

theorem event_wakes_reader : ∃ run R R', Trail ⟨9⟩ .idle run ∧ [R,R'] <:+: .idle :: run ∧
    Processes R 5 R' ∧ Parked R 5 0 ∧ WokenBy R' 5 (5,R.posts) 0 := by
  obtain ⟨run,R,hrun,hlast,hsmall,hqueue,hentry,hproc⟩ := tour_last (r := ⟨9⟩)
    (P := fun run => ∀ R ∈ run, ∀ w ∈ (R.notifies 5).queue, w = 0)
    (Q := fun R => (R.notifies 5).queue = [0] ∧ R.entries 5 = true ∧ processing R 1 5 = true) .idle
    (parks 0 epollin ++ [.spawn .tick,.call 1 ready]) (by decide +kernel)
  have hs : Seated ⟨9⟩ R := later_seated
    (trail_later hrun (List.mem_cons_of_mem _ (List.mem_of_getLast? hlast))) idle_seated
  obtain ⟨R',hp⟩ := processing_processes hproc
  obtain ⟨hrun',hnext⟩ := trail_concat hrun hlast (processes_step hp)
  have hqueue₅ : (R.notifies (UInt32.toNat 5)).queue = [0] := hqueue
  have honly : ∀ R₁ ∈ Runtime.idle :: (run ++ [R']), ∀ w ∈ (R₁.notifies 5).queue, w = 0 := by
    intro R₁ hR₁ w hw
    simp only [List.mem_cons,List.mem_append,List.not_mem_nil,or_false] at hR₁
    rcases hR₁ with rfl | hR₁ | rfl
    · cases hw
    · exact hsmall R₁ hR₁ w hw
    · change w ∈ (R₁.notifies (UInt32.toNat 5)).queue at hw
      rw [processes_notifies hp hentry,(Notify.notifyOne_cons hqueue₅).1] at hw
      cases hw
  have hall := (events_wake_parked_iff hrun' 5).mpr (by
    intro R₁ R₂ hnext₁ _ w w' hw hw'
    have hmem : R₁ ∈ Runtime.idle :: (run ++ [R']) := hnext₁.subset List.mem_cons_self
    rw [honly R₁ hmem w hw.1,honly R₁ hmem w' hw'.1])
  have hzero : Parked R 5 0 := by
    rw [parked_iff hs,hqueue₅]
    exact List.mem_cons_self
  exact ⟨_,R,R',hrun',hnext,hp,hzero,(hall R R' hnext hp 0 hzero).1⟩

theorem event_leaves_writer_parked : ∃ run R R', Trail ⟨9⟩ .idle run ∧
    [R,R'] <:+: .idle :: run ∧ Processes R 5 R' ∧ Parked R 5 0 ∧ Parked R 5 1 ∧
      WokenBy R' 5 (5,R.posts) 0 ∧ ¬ WokenBy R' 5 (5,R.posts) 1 ∧ Parked R' 5 1 := by
  obtain ⟨run,R,hrun,hlast,-,hqueue,hentry,hproc⟩ := tour_last (r := ⟨9⟩) (P := fun _ => True)
    (Q := fun R => (R.notifies 5).queue = [0,1] ∧ R.entries 5 = true ∧ processing R 2 5 = true)
    .idle (parks 0 epollin ++ parks 1 epollout ++ [.spawn .tick,.call 2 ready])
    (by decide +kernel)
  have hs : Seated ⟨9⟩ R := later_seated
    (trail_later hrun (List.mem_cons_of_mem _ (List.mem_of_getLast? hlast))) idle_seated
  obtain ⟨R',hp⟩ := processing_processes hproc
  obtain ⟨hrun',hnext⟩ := trail_concat hrun hlast (processes_step hp)
  have hs' : Seated ⟨9⟩ R' := step_seated (processes_step hp) hs
  have hqueue₅ : (R.notifies (UInt32.toNat 5)).queue = [0,1] := hqueue
  have hnotify := processes_notifies hp hentry
  obtain ⟨hrest,hwoken,-⟩ := Notify.notifyOne_cons (x := {(UInt32.toNat 5,R.posts)}) hqueue₅
  have hparked : Parked R' 5 1 := by
    rw [parked_iff hs',hnotify,hrest]
    exact List.mem_cons_self
  refine ⟨_,R,R',hrun',hnext,hp,?_,?_,?_,?_,hparked⟩
  · rw [parked_iff hs,hqueue₅]
    simp
  · rw [parked_iff hs,hqueue₅]
    simp
  · rw [WokenBy,hnotify,hwoken]
    exact List.mem_cons_self
  · intro hw
    exact woken_not_parked hw hparked

def cancelled : (c : Call) → Reply c
  | .select _ _ _ => ((0 : ℕ),.dropped)
  | c => obliging c

theorem cancelled_reader_passes_on : ∃ R R', Later ⟨9⟩ .idle R ∧ Later ⟨9⟩ R R' ∧
    (5,0) ∈ R.posted 5 ∧ R'.consumed 5 = [] ∧ Held R' 5 (5,0) := by
  obtain ⟨run,R,hrun,hlast,-,hposted,hnext⟩ := tour_last (r := ⟨9⟩) (P := fun _ => True)
    (Q := fun R => (5,0) ∈ R.posted 5 ∧ (R.tour ⟨9⟩ [.lose 0 cancelled]).any (fun run =>
      decide True && run.getLast?.any (fun R' => decide ((R'.consumed 5).isEmpty = true))) = true)
    .idle (parks 0 epollin ++ [.spawn .tick,.call 1 ready,.call 1 ready]) (by decide +kernel)
  obtain ⟨run',R',hrun',hlast',-,hempty⟩ := tour_last R [.lose 0 cancelled] hnext
  have hR : Later ⟨9⟩ .idle R :=
    trail_later hrun (List.mem_cons_of_mem _ (List.mem_of_getLast? hlast))
  have hR' : Later ⟨9⟩ R R' :=
    trail_later hrun' (List.mem_cons_of_mem _ (List.mem_of_getLast? hlast'))
  have hconsumed : R'.consumed 5 = [] := List.isEmpty_iff.mp hempty
  have hkept := ((notifications_conserved hR hR' 5).1 (5,0) hposted).1
  refine ⟨R,R',hR,hR',hposted,hconsumed,?_⟩
  rcases hkept with hheld | ⟨i,c,m,t,hi,-⟩
  · exact hheld
  · change (i,c) ∈ R'.consumed 5 at hi
    rw [hconsumed] at hi
    cases hi

end VclRs
