import VclRs.Prewarm.Discipline
import Mathlib.Data.List.Nodup

namespace VclRs

open Interaction

namespace Team

variable {n limit : ℕ} {T : Team} {h : Hand}

theorem can_act (hh : h ∈ T.hands) {w : PoolThread} {locked : Bool} {arrivals : ℕ}
    (ha : Acts n h.real T.locked T.arrivals w locked arrivals) :
    ∃ C, Crew.Step n limit T.real C := by
  obtain ⟨pre,post,heq⟩ := List.append_of_mem hh
  have ht : T.real.threads = pre.map Hand.real ++ h.real :: post.map Hand.real := by
    simp only [real,heq,List.map_append,List.map_cons]
  exact ⟨_,.act ht ha⟩

theorem can_pick (hq : T.queue ≠ []) (hh : h ∈ T.hands) (hp : h.post = none) :
    ∃ C, Crew.Step n limit T.real C := by
  obtain ⟨reg,called,post⟩ := h
  cases hp
  obtain ⟨pre,post,heq⟩ := List.append_of_mem hh
  have ht : T.real.threads = pre.map Hand.real ++ ⟨reg,called,.idle⟩ :: post.map Hand.real := by
    simp only [real,heq,List.map_append,List.map_cons]
    rfl
  obtain ⟨task,htask⟩ := List.exists_mem_of_ne_nil _ hq
  exact ⟨_,.pick ht htask⟩

theorem can_thread (hq : T.queue ≠ []) (hl : T.hands.length < limit)
    (hi : ∀ h ∈ T.hands, h.post ≠ none) : ∃ C, Crew.Step n limit T.real C := by
  refine ⟨_,.thread hq ?_ ?_⟩
  · rw [real,List.length_map]
    exact hl
  · intro w hw
    obtain ⟨h,hh,rfl⟩ := List.mem_map.mp hw
    obtain ⟨reg,called,post⟩ := h
    cases post with
    | none => exact absurd rfl (hi _ hh)
    | some x => exact Station.noConfusion

theorem can_finish {task : ℕ} {arrived : Bool} (hh : h ∈ T.hands)
    (hp : h.post = some (task,arrived,.done)) : ∃ C, Crew.Step n limit T.real C := by
  obtain ⟨reg,called,post⟩ := h
  cases hp
  obtain ⟨pre,post,heq⟩ := List.append_of_mem hh
  have ht : T.real.threads = pre.map Hand.real ++
      ⟨reg,called,.busy task arrived (.ret (.ok ()))⟩ :: post.map Hand.real := by
    simp only [real,heq,List.map_append,List.map_cons]
    rfl
  exact ⟨_,.finish ht⟩

theorem can_work {task : ℕ} {arrived : Bool} {s : Shift} (hh : h ∈ T.hands)
    (hp : h.post = some (task,arrived,s)) (hl : s ≠ .lock) (hb : s ≠ .barrier) :
    ∃ C, Crew.Step n limit T.real C := by
  obtain ⟨reg,called,post⟩ := h
  cases hp
  cases s with
  | entry => exact can_act hh .get
  | lock => exact absurd rfl hl
  | register => exact can_act hh (.register 0 (by decide))
  | index => exact can_act hh (.index 0 (by decide))
  | enrol => exact can_act hh .set
  | unlock => exact can_act hh .unlock
  | barrier => exact absurd rfl hb
  | done => exact can_finish hh rfl

theorem can_lock {task : ℕ} {arrived : Bool} (hh : h ∈ T.hands)
    (hp : h.post = some (task,arrived,.lock)) (hl : T.locked = false) :
    ∃ C, Crew.Step n limit T.real C := by
  obtain ⟨reg,called,post⟩ := h
  cases hp
  apply can_act hh
  rw [hl]
  exact .lock

theorem can_arrive {task : ℕ} (hh : h ∈ T.hands) (hp : h.post = some (task,false,.barrier)) :
    ∃ C, Crew.Step n limit T.real C := by
  obtain ⟨reg,called,post⟩ := h
  cases hp
  exact can_act hh .arrive

theorem can_leave {task : ℕ} (hh : h ∈ T.hands) (hp : h.post = some (task,true,.barrier))
    (ha : n ≤ T.arrivals) : ∃ C, Crew.Step n limit T.real C := by
  obtain ⟨reg,called,post⟩ := h
  cases hp
  exact can_act hh (.leave ha)

theorem waiting_progress (hT : T.Sound n) (hn : 0 < n) (hlim : n ≤ limit) (hall : T.spawned = n)
    {task : ℕ} (htask : task < n) (hf : task ∉ T.finished)
    (harr : ∀ h ∈ T.hands, ∀ x, h.post = some x → ∃ i, x = (i,true,.barrier)) :
    ∃ C, Crew.Step n limit T.real C := by
  obtain ⟨-,hcover,hcensus,-,htally,-,-,-⟩ := hT
  have hsame : T.hands.countP Hand.arrived = T.hands.countP Hand.busy := by
    apply List.countP_congr
    intro h hh
    cases hp : h.post with
    | none => simp [Hand.arrived,Hand.busy,hp]
    | some x =>
      obtain ⟨i,rfl⟩ := harr h hh x hp
      simp [Hand.arrived,Hand.busy,hp]
  by_cases hopen : n ≤ T.arrivals ∧ ∃ h ∈ T.hands, ∃ x, h.post = some x
  · obtain ⟨ha,h,hh,x,hp⟩ := hopen
    obtain ⟨i,rfl⟩ := harr h hh x hp
    exact can_leave hh hp ha
  · have hnone : n ≤ T.arrivals → ∀ h ∈ T.hands, h.post = none := by
      intro ha h hh
      cases hp : h.post with
      | none => rfl
      | some x => exact absurd ⟨ha,h,hh,x,hp⟩ hopen
    have hq : T.queue ≠ [] := by
      intro hq
      rw [hq,List.length_nil] at hcensus
      have ha : n ≤ T.arrivals := by omega
      rcases hcover task (hall ▸ htask) with hc | ⟨h,hh,a,s,hp⟩ | hc
      · rw [hq] at hc
        cases hc
      · rw [hnone ha h hh] at hp
        cases hp
      · exact hf hc
    by_cases hidle : ∃ h ∈ T.hands, h.post = none
    · obtain ⟨h,hh,hp⟩ := hidle
      exact can_pick hq hh hp
    · have hbusy : ∀ h ∈ T.hands, h.post ≠ none := fun h hh hp => hidle ⟨h,hh,hp⟩
      have hlen : T.hands.countP Hand.busy = T.hands.length := by
        apply List.countP_eq_length.mpr
        intro h hh
        exact Option.isSome_iff_ne_none.mpr (hbusy h hh)
      refine can_thread hq ?_ hbusy
      by_cases ha : n ≤ T.arrivals
      · have hempty : T.hands = [] := by
          apply List.eq_nil_iff_forall_not_mem.mpr
          intro h hh
          exact hbusy h hh (hnone ha h hh)
        rw [hempty,List.length_nil]
        omega
      · omega

theorem pool_progress (hT : T.Sound n) (hn : 0 < n) (hlim : n ≤ limit) (hall : T.spawned = n)
    {task : ℕ} (htask : task < n) (hf : task ∉ T.finished) : ∃ C, Crew.Step n limit T.real C := by
  by_cases hwork : ∃ h ∈ T.hands, ∃ i a s, h.post = some (i,a,s) ∧ s ≠ .lock ∧ s ≠ .barrier
  · obtain ⟨h,hh,i,a,s,hp,hl,hb⟩ := hwork
    exact can_work hh hp hl hb
  have hstill : ∀ h ∈ T.hands, ∀ i a s, h.post = some (i,a,s) → s = .lock ∨ s = .barrier := by
    intro h hh i a s hp
    by_contra hs
    rw [not_or] at hs
    exact hwork ⟨h,hh,i,a,s,hp,hs.1,hs.2⟩
  have hfree : T.locked = false := by
    have hzero : T.hands.countP Hand.critical = 0 := by
      apply List.countP_eq_zero.mpr
      intro h hh
      cases hp : h.post with
      | none => simp [Hand.critical,hp]
      | some x =>
        obtain ⟨i,a,s⟩ := x
        rcases hstill h hh i a s hp with rfl | rfl <;> simp [Hand.critical,hp,Shift.critical]
    rw [hT.lock] at hzero
    exact Bool.toNat_eq_zero.mp hzero
  by_cases hlock : ∃ h ∈ T.hands, ∃ i a, h.post = some (i,a,.lock)
  · obtain ⟨h,hh,i,a,hp⟩ := hlock
    exact can_lock hh hp hfree
  by_cases hlate : ∃ h ∈ T.hands, ∃ i, h.post = some (i,false,.barrier)
  · obtain ⟨h,hh,i,hp⟩ := hlate
    exact can_arrive hh hp
  apply waiting_progress hT hn hlim hall htask hf
  rintro h hh ⟨i,a,s⟩ hp
  rcases hstill h hh i a s hp with rfl | rfl
  · exact absurd ⟨h,hh,i,a,hp⟩ hlock
  · cases a with
    | true => exact ⟨i,rfl⟩
    | false => exact absurd ⟨h,hh,i,hp⟩ hlate

theorem progress (hT : T.Sound n) (hn : 0 < n) (hlim : n ≤ limit)
    (hret : T.leg.code ≠ .ret (.ok ())) : ∃ C, Crew.Step n limit T.real C := by
  have hon := hT.leg
  cases hleg : T.leg with
  | spawning handles left =>
    rw [hleg] at hon
    obtain ⟨hpos,-,-⟩ := hon
    cases left with
    | zero => cases hpos
    | succ left =>
      have hcaller : T.real.caller = .call .taskSpawn
          (fun i => (Leg.spawning (handles ++ [i]) left).code) := by
        rw [real,hleg]
        rfl
      exact ⟨_,.spawn hcaller⟩
  | joining handles =>
    rw [hleg] at hon hret
    obtain ⟨hall,hlt,-⟩ := hon
    cases handles with
    | nil => exact absurd rfl hret
    | cons task handles =>
      by_cases hf : task ∈ T.finished
      · obtain ⟨k,hk⟩ : ∃ k, T.real.caller = .call (.taskJoin task) k := by
          rw [real,hleg]
          exact ⟨_,rfl⟩
        exact ⟨_,.join hk hf⟩
      · exact pool_progress hT hn hlim hall (hlt task (List.mem_cons_self ..)) hf

end Team

theorem countP_indices (f : Hand → Bool) (hands : List Hand) :
    ∃ ids : List ℕ, ids.Nodup ∧ ids.length = hands.countP f ∧
      ∀ i ∈ ids, ∃ h, hands[i]? = some h ∧ f h = true := by
  induction hands with
  | nil => exact ⟨[],List.nodup_nil,rfl,fun i hi => absurd hi List.not_mem_nil⟩
  | cons h hands ih =>
    obtain ⟨ids,hnodup,hlen,hids⟩ := ih
    have hnext : (ids.map Nat.succ).Nodup := List.Nodup.map Nat.succ_injective hnodup
    have hlater : ∀ i ∈ ids.map Nat.succ, ∃ x, (h :: hands)[i]? = some x ∧ f x = true := by
      intro i hi
      obtain ⟨j,hj,rfl⟩ := List.mem_map.mp hi
      exact hids j hj
    cases hf : f h with
    | false =>
      refine ⟨ids.map Nat.succ,hnext,?_,hlater⟩
      simp [hlen,hf]
    | true =>
      refine ⟨0 :: ids.map Nat.succ,?_,?_,?_⟩
      · simp [hnext]
      · simp [hlen,hf]
      · intro i hi
        rcases List.mem_cons.mp hi with rfl | hi
        · exact ⟨h,rfl,hf⟩
        · exact hlater i hi

theorem countP_unique {f : Hand → Bool} {hands : List Hand} (hle : hands.countP f ≤ 1) {i j : ℕ}
    {h g : Hand} (hi : hands[i]? = some h) (hj : hands[j]? = some g) (hh : f h = true)
    (hg : f g = true) : i = j := by
  induction hands generalizing i j with
  | nil => cases hi
  | cons x hands ih =>
    have hzero : f x = true → hands.countP f = 0 := by
      intro hx
      rw [List.countP_cons_of_pos hx] at hle
      omega
    cases i with
    | zero =>
      cases hi
      cases j with
      | zero => rfl
      | succ j =>
        have hmem : g ∈ hands := List.mem_of_getElem? (i := j) hj
        exact absurd hg (List.countP_eq_zero.mp (hzero hh) g hmem)
    | succ i =>
      cases j with
      | zero =>
        cases hj
        have hmem : h ∈ hands := List.mem_of_getElem? (i := i) hi
        exact absurd hh (List.countP_eq_zero.mp (hzero hg) h hmem)
      | succ j =>
        have hle' : hands.countP f ≤ 1 := by
          rw [List.countP_cons] at hle
          omega
        exact congrArg Nat.succ (ih hle' hi hj)

def Registering (w : PoolThread) : Prop :=
  ∃ task arrived k, w.station = .busy task arrived (.call .workerRegister k)

theorem registering_critical {h : Hand} (hr : Registering h.real) : h.critical = true := by
  obtain ⟨reg,called,post⟩ := h
  obtain ⟨task,arrived,k,hs⟩ := hr
  cases post with
  | none => cases hs
  | some x =>
    obtain ⟨i,a,s⟩ := x
    cases s with
    | register => rfl
    | entry | lock | index | enrol | unlock | barrier | done => cases hs

theorem Team.returned {n : ℕ} {T : Team} (hT : T.Sound n) (hn : 0 < n)
    (hret : T.leg.code = .ret (.ok ())) : n ≤ T.hands.countP Hand.mustered := by
  have hon := hT.leg
  cases hleg : T.leg with
  | spawning handles left =>
    rw [hleg] at hon hret
    obtain ⟨hpos,-,-⟩ := hon
    cases left with
    | zero => cases hpos
    | succ left => cases hret
  | joining handles =>
    rw [hleg] at hon hret
    obtain ⟨-,-,hall⟩ := hon
    cases handles with
    | cons task handles => cases hret
    | nil =>
      rcases hall 0 hn with hm | hm
      · cases hm
      · exact hT.muster (hT.gate (.inl (List.ne_nil_of_mem hm)))

theorem prewarm_musters (n limit : ℕ) (flags : List Bool) (hn : 0 < n) (hlim : n ≤ limit) (C : Crew)
    (h : Crew.Reach n limit flags C) :
    (C.caller = .ret (.ok ()) → ∃ ids : List ℕ, ids.Nodup ∧ n ≤ ids.length ∧
      ∀ i ∈ ids, ∃ w, C.threads[i]? = some w ∧ w.called = true ∧ w.registered = true) ∧
    (∀ (i j : ℕ) w v, C.threads[i]? = some w → C.threads[j]? = some v → Registering w → Registering v →
      i = j) ∧
    (C.caller ≠ .ret (.ok ()) → ∃ C', Crew.Step n limit C C') := by
  obtain ⟨T,hT,rfl⟩ := Team.sound_reach hn h
  refine ⟨?_,?_,Team.progress hT hn hlim⟩
  · intro hret
    obtain ⟨ids,hnodup,hlen,hids⟩ := countP_indices Hand.mustered T.hands
    refine ⟨ids,hnodup,hlen ▸ Team.returned hT hn hret,?_⟩
    intro i hi
    obtain ⟨h,hh,hm⟩ := hids i hi
    obtain ⟨hc,hr⟩ := Bool.and_eq_true_iff.mp hm
    refine ⟨h.real,?_,hc,hr⟩
    rw [Team.real,List.getElem?_map,hh]
    rfl
  · intro i j w v hw hv hrw hrv
    rw [Team.real,List.getElem?_map,Option.map_eq_some_iff] at hw hv
    obtain ⟨h,hh,rfl⟩ := hw
    obtain ⟨g,hg,rfl⟩ := hv
    have hle : T.hands.countP Hand.critical ≤ 1 := hT.lock ▸ Bool.toNat_le _
    exact countP_unique hle hh hg (registering_critical hrw) (registering_critical hrv)

theorem prewarm_musters_one : ∃ C, Crew.Reach 1 1 [] C ∧ C.caller = .ret (.ok ()) ∧
    ∃ ids : List ℕ, ids.Nodup ∧ 1 ≤ ids.length ∧
      ∀ i ∈ ids, ∃ w, C.threads[i]? = some w ∧ w.called = true ∧ w.registered = true := by
  have s0 : Crew.Reach 1 1 [] (Crew.start 1 []) := .refl
  have s1 := s0.tail (.spawn rfl)
  have s2 := s1.tail (.thread (List.cons_ne_nil _ _) Nat.zero_lt_one
    (fun _ hw => absurd hw List.not_mem_nil))
  have s3 := s2.tail (@Crew.Step.pick 1 1 _ [] [] false false 0 rfl (List.mem_singleton_self _))
  have s4 := s3.tail (@Crew.Step.act 1 1 _ [] [] _ _ _ _ rfl .get)
  have s5 := s4.tail (@Crew.Step.act 1 1 _ [] [] _ _ _ _ rfl .lock)
  have s6 := s5.tail (@Crew.Step.act 1 1 _ [] [] _ _ _ _ rfl (.register 0 (by decide)))
  have s7 := s6.tail (@Crew.Step.act 1 1 _ [] [] _ _ _ _ rfl (.index 0 (by decide)))
  have s8 := s7.tail (@Crew.Step.act 1 1 _ [] [] _ _ _ _ rfl .set)
  have s9 := s8.tail (@Crew.Step.act 1 1 _ [] [] _ _ _ _ rfl .unlock)
  have s10 := s9.tail (@Crew.Step.act 1 1 _ [] [] _ _ _ _ rfl .arrive)
  have s11 := s10.tail (@Crew.Step.act 1 1 _ [] [] _ _ _ _ rfl (.leave (Nat.le_refl 1)))
  have s12 := s11.tail (@Crew.Step.finish 1 1 _ [] [] _ _ _ _ _ rfl)
  have s13 := s12.tail (@Crew.Step.join 1 1 _ 0 _ rfl (List.mem_singleton_self _))
  have hret := (prewarm_musters 1 1 [] Nat.zero_lt_one (Nat.le_refl 1) _ s13).1
  exact ⟨_,s13,rfl,hret rfl⟩

end VclRs
