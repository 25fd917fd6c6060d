import VclRs.Prewarm.Completion
import Mathlib.Algebra.BigOperators.Group.List.Basic

namespace VclRs

open Interaction

def PoolThread.toil (w : PoolThread) : ℕ :=
  match w.station with
  | .busy _ _ (.call .registeredGet _) => 8
  | .busy _ _ (.call .registerLock _) => 7
  | .busy _ _ (.call .workerRegister _) => 6
  | .busy _ _ (.call .workerIndex _) => 5
  | .busy _ _ (.call .registeredSet _) => 4
  | .busy _ _ (.call .registerUnlock _) => 3
  | .busy _ arrived (.call .barrierWait _) => if arrived then 1 else 2
  | _ => 0

def Shift.toil (arrived : Bool) : Shift → ℕ
  | .entry => 8
  | .lock => 7
  | .register => 6
  | .index => 5
  | .enrol => 4
  | .unlock => 3
  | .barrier => if arrived then 1 else 2
  | .done => 0

theorem real_toil {reg called arrived : Bool} {task : ℕ} {s : Shift} :
    (Hand.real ⟨reg,called,some (task,arrived,s)⟩).toil = s.toil arrived := by
  cases s <;> rfl

namespace Crew

def toil (n limit : ℕ) (C : Crew) : ℕ :=
  11 * (n - C.spawned) + 10 * C.queue.length + (limit - C.threads.length) +
    (C.threads.map PoolThread.toil).sum

structure Deadlocked (n limit : ℕ) (C : Crew) : Prop where
  threads : C.threads.length = limit
  blocked : ∀ w ∈ C.threads, ∃ task, w = ⟨true,true,.busy task true Shift.atBarrier⟩
  queue : C.queue.length = n - limit
  caller : ∃ task k, C.caller = .call (.taskJoin task) k

structure Starved (n limit : ℕ) (C : Crew) : Prop where
  unfinished : C.finished = []
  waiting : ∀ r, C.caller ≠ .ret r
  finite : ∀ f : ℕ → Crew, f 0 = C → ∃ m, ¬ Step n limit (f m) (f (m + 1))
  stuck : (∀ C', ¬ Step n limit C C') → Deadlocked n limit C

variable {n limit : ℕ} {flags : List Bool} {C C' : Crew}

theorem threads_reach (hf : flags.length ≤ limit) (h : Reach n limit flags C) :
    C.threads.length ≤ limit := by
  induction h with
  | refl =>
    rw [start,List.length_map]
    exact hf
  | tail _ hs ih =>
    cases hs with
    | spawn h => exact ih
    | join h hf => exact ih
    | thread hq hl hi =>
      rw [List.length_append]
      exact hl
    | pick ht hq =>
      rw [ht] at ih
      simpa using ih
    | act ht ha =>
      rw [ht] at ih
      simpa using ih
    | finish ht =>
      rw [ht] at ih
      simpa using ih

end Crew

namespace Team

variable {n limit : ℕ} {flags : List Bool} {T : Team} {C : Crew}

theorem few_arrivals (hT : T.Sound n) (hlen : T.hands.length ≤ limit) (hlim : limit < n)
    (hf : T.finished = []) : T.arrivals < n := by
  have htally := hT.tally
  rw [hf,List.length_nil] at htally
  have hle : T.hands.countP Hand.arrived ≤ T.hands.length := List.countP_le_length
  omega

theorem unfinished_step (hT : T.Sound n) (hlen : T.hands.length ≤ limit) (hlim : limit < n)
    (hf : T.finished = []) (hs : Crew.Step n limit T.real C) : C.finished = [] := by
  cases hs with
  | spawn h => exact hf
  | join h _ => exact hf
  | thread hq hl hi => exact hf
  | pick ht hq => exact hf
  | act ht ha => exact hf
  | finish ht =>
    obtain ⟨pre,⟨reg,called,station⟩,post,hh,-,hw,-⟩ := map_real_split ht
    have hthrough : n ≤ T.arrivals := by
      apply hT.gate
      refine .inr ⟨_,hh ▸ List.mem_append_right pre (List.mem_cons_self ..),?_⟩
      cases station with
      | none => cases hw
      | some x =>
        obtain ⟨task,arrived,s⟩ := x
        cases s with
        | done => rfl
        | entry | lock | register | index | enrol | unlock | barrier => cases hw
    have hfew := few_arrivals hT hlen hlim hf
    omega

theorem unfinished_reach (hn : 0 < n) (hlim : limit < n) (hflags : flags.length ≤ limit)
    (h : Crew.Reach n limit flags C) : C.finished = [] := by
  induction h with
  | refl => rfl
  | tail hr hs ih =>
    obtain ⟨T,hT,rfl⟩ := sound_reach hn hr
    have hlen := Crew.threads_reach hflags hr
    rw [real,List.length_map] at hlen
    exact unfinished_step hT hlen hlim ih hs

theorem moves_toil {h h' : Hand} {locked locked' : Bool} {arrivals arrivals' : ℕ}
    (hm : Moves n h locked arrivals h' locked' arrivals') (ha : arrivals < n) :
    h'.real.toil < h.real.toil := by
  cases hm with
  | leave hle => omega
  | pass | seek | lock | register | index | enrol | unlock | arrive =>
    rw [real_toil,real_toil]
    decide +revert

theorem sum_split (pre post : List PoolThread) (w : PoolThread) :
    ((pre ++ w :: post).map PoolThread.toil).sum = ((pre ++ post).map PoolThread.toil).sum + w.toil := by
  simp only [List.map_append,List.map_cons,List.sum_append,List.sum_cons]
  omega

theorem toil_step (hT : T.Sound n) (hlen : T.hands.length ≤ limit) (hlim : limit < n)
    (hf : T.finished = []) (hs : Crew.Step n limit T.real C) : C.toil n limit < T.real.toil n limit := by
  cases hs with
  | spawn h =>
    have hon := hT.leg
    have hspawned : T.spawned < n := by
      cases hleg : T.leg with
      | spawning handles left =>
        rw [hleg] at hon
        obtain ⟨hpos,-,hsum⟩ := hon
        omega
      | joining handles =>
        change T.leg.code = _ at h
        rw [hleg] at h
        cases handles with
        | nil => cases h
        | cons task handles => cases h
    simp only [Crew.toil,real,List.length_append,List.length_singleton]
    omega
  | join h hj =>
    change _ ∈ T.finished at hj
    rw [hf] at hj
    cases hj
  | thread hq hl hi =>
    have hspare : PoolThread.toil ⟨false,false,.idle⟩ = 0 := rfl
    simp only [Crew.toil,List.length_append,List.length_singleton,List.map_append,List.map_singleton,
      List.sum_append,List.sum_singleton,hspare]
    omega
  | pick ht hq =>
    have hidle {reg called : Bool} : PoolThread.toil ⟨reg,called,.idle⟩ = 0 := rfl
    have hentry {reg called : Bool} {task : ℕ} :
        PoolThread.toil ⟨reg,called,.busy task false prewarmTask.prog⟩ = 8 := rfl
    have hqueue := List.length_erase_of_mem hq
    have hpos := List.length_pos_of_mem hq
    simp only [Crew.toil,ht,sum_split,List.length_append,List.length_cons,hidle,hentry,hqueue]
    omega
  | act ht ha =>
    obtain ⟨pre,hand,post,hh,rfl,rfl,rfl⟩ := map_real_split ht
    obtain ⟨hand',rfl,hm⟩ := Hand.moves ha
    have hless := moves_toil hm (few_arrivals hT hlen hlim hf)
    simp only [Crew.toil,ht,sum_split,List.length_append,List.length_cons]
    omega
  | finish ht => exact absurd (unfinished_step hT hlen hlim hf (.finish ht)) (List.cons_ne_nil _ _)

theorem waits_to_join (hT : T.Sound n) (hn : 0 < n) (hf : T.finished = []) :
    (∃ k, T.leg.code = .call .taskSpawn k) ∨
      T.spawned = n ∧ ∃ task k, T.leg.code = .call (.taskJoin task) k := by
  have hon := hT.leg
  cases hleg : T.leg with
  | spawning handles left =>
    rw [hleg] at hon
    obtain ⟨hpos,-,-⟩ := hon
    cases left with
    | zero => cases hpos
    | succ left => exact .inl ⟨_,rfl⟩
  | joining handles =>
    rw [hleg,hf] at hon
    obtain ⟨hall,-,hleft⟩ := hon
    cases handles with
    | nil =>
      rcases hleft 0 hn with h | h
      · cases h
      · cases h
    | cons task handles => exact .inr ⟨hall,_,_,rfl⟩

theorem stuck_barrier (hT : T.Sound n) (hno : ∀ C, ¬ Crew.Step n limit T.real C) :
    ∀ h ∈ T.hands, ∀ x, h.post = some x → ∃ i, x = (i,true,.barrier) := by
  have hsettled : ∀ h ∈ T.hands, ∀ i a s, h.post = some (i,a,s) → s = .lock ∨ s = .barrier := by
    intro h hh i a s hp
    by_contra hs
    rw [not_or] at hs
    obtain ⟨C,hC⟩ := can_work hh hp hs.1 hs.2
    exact hno C hC
  have hfree : T.locked = false := by
    have hzero : T.hands.countP Hand.critical = 0 := by
      apply List.countP_eq_zero.mpr
      intro h hh
      cases hp : h.post with
      | none => simp [Hand.critical,hp]
      | some x =>
        obtain ⟨i,a,s⟩ := x
        rcases hsettled h hh i a s hp with rfl | rfl <;> simp [Hand.critical,hp,Shift.critical]
    rw [hT.lock] at hzero
    exact Bool.toNat_eq_zero.mp hzero
  rintro h hh ⟨i,a,s⟩ hp
  rcases hsettled h hh i a s hp with rfl | rfl
  · have hmove : ∃ C, Crew.Step n limit T.real C := can_lock hh hp hfree
    exact absurd hmove (not_exists.mpr hno)
  · cases a with
    | true => exact ⟨i,rfl⟩
    | false =>
      have hmove : ∃ C, Crew.Step n limit T.real C := can_arrive hh hp
      exact absurd hmove (not_exists.mpr hno)

theorem stuck_deadlocked (hT : T.Sound n) (hn : 0 < n) (hlen : T.hands.length ≤ limit)
    (hlim : limit < n) (hf : T.finished = []) (hno : ∀ C, ¬ Crew.Step n limit T.real C) :
    T.real.Deadlocked n limit := by
  have hbarrier := stuck_barrier hT hno
  have hjoin : T.spawned = n ∧ ∃ task k, T.leg.code = .call (.taskJoin task) k := by
    rcases waits_to_join hT hn hf with ⟨k,hk⟩ | hjoin
    · exact absurd (.spawn hk) (hno _)
    · exact hjoin
  have hcensus := hT.census
  rw [hf,List.length_nil,hjoin.1] at hcensus
  have hbusy : T.hands.countP Hand.busy ≤ T.hands.length := List.countP_le_length
  have hqueue : T.queue ≠ [] := by
    intro hq
    rw [hq,List.length_nil] at hcensus
    omega
  have hnone : ∀ h ∈ T.hands, h.post ≠ none := by
    intro h hh hp
    exact not_exists.mpr hno (can_pick hqueue hh hp)
  have hall : T.hands.countP Hand.busy = T.hands.length := by
    apply List.countP_eq_length.mpr
    intro h hh
    exact Option.isSome_iff_ne_none.mpr (hnone h hh)
  have hfull : T.hands.length = limit := by
    by_contra hne
    exact not_exists.mpr hno (can_thread hqueue (by omega) hnone)
  constructor
  · rw [real,List.length_map]
    exact hfull
  · intro w hw
    obtain ⟨h,hh,rfl⟩ := List.mem_map.mp hw
    obtain ⟨reg,called,post⟩ := h
    obtain ⟨x,rfl⟩ := Option.ne_none_iff_exists'.mp (hnone _ hh)
    obtain ⟨i,rfl⟩ := hbarrier _ hh x rfl
    obtain ⟨-,-,hreg,hcall⟩ := hT.fit _ hh _ _ _ rfl
    have hreg' : reg = true := hreg (.inr (.inl rfl))
    have hcall' : called = true := hcall (by decide)
    subst hreg' hcall'
    exact ⟨i,rfl⟩
  · change T.queue.length = n - limit
    omega
  · exact hjoin.2

end Team

namespace Crew

variable {n limit : ℕ} {flags : List Bool} {C C' : Crew}

theorem toil_reach (hn : 0 < n) (hlim : limit < n) (hflags : flags.length ≤ limit)
    (h : Reach n limit flags C) (hs : Step n limit C C') : C'.toil n limit < C.toil n limit := by
  have hlen := threads_reach hflags h
  have hf := Team.unfinished_reach hn hlim hflags h
  obtain ⟨T,hT,rfl⟩ := Team.sound_reach hn h
  rw [Team.real,List.length_map] at hlen
  exact Team.toil_step hT hlen hlim hf hs

theorem runs_finite (hn : 0 < n) (hlim : limit < n) (hflags : flags.length ≤ limit) (f : ℕ → Crew)
    (h : Reach n limit flags (f 0)) : ∃ m, ¬ Step n limit (f m) (f (m + 1)) := by
  by_contra hall
  have hstep : ∀ m, Step n limit (f m) (f (m + 1)) := by
    intro m
    by_contra hno
    exact hall ⟨m,hno⟩
  have hreach : ∀ m, Reach n limit flags (f m) := by
    intro m
    induction m with
    | zero => exact h
    | succ m ih => exact ih.tail (hstep m)
  have hless : ∀ m, (f m).toil n limit + m ≤ (f 0).toil n limit := by
    intro m
    induction m with
    | zero => exact Nat.le_refl _
    | succ m ih =>
      have hdown := toil_reach hn hlim hflags (hreach m) (hstep m)
      omega
  have hover := hless ((f 0).toil n limit + 1)
  omega

end Crew

theorem prewarm_starves (n limit : ℕ) (flags : List Bool) (hlim : limit < n)
    (hflags : flags.length ≤ limit) (C : Crew) (h : Crew.Reach n limit flags C) :
    C.Starved n limit := by
  have hn : 0 < n := by omega
  have hlen := Crew.threads_reach hflags h
  have hf := Team.unfinished_reach hn hlim hflags h
  have hfinite : ∀ f : ℕ → Crew, f 0 = C → ∃ m, ¬ Crew.Step n limit (f m) (f (m + 1)) := by
    rintro f rfl
    exact Crew.runs_finite hn hlim hflags f h
  obtain ⟨T,hT,rfl⟩ := Team.sound_reach hn h
  refine ⟨hf,?_,hfinite,?_⟩
  · intro r hr
    change T.leg.code = .ret r at hr
    rcases Team.waits_to_join hT hn hf with ⟨k,hk⟩ | ⟨-,task,k,hk⟩
    · rw [hk] at hr
      cases hr
    · rw [hk] at hr
      cases hr
  · rw [Team.real,List.length_map] at hlen
    exact Team.stuck_deadlocked hT hn hlen hlim hf

theorem prewarm_starves_two : ∃ C, Crew.Reach 2 1 [] C ∧
    C.threads = [⟨true,true,.busy 0 true Shift.atBarrier⟩] ∧ C.queue = [1] ∧ C.Starved 2 1 := by
  have s0 : Crew.Reach 2 1 [] (Crew.start 2 []) := .refl
  have s1 := s0.tail (.spawn rfl)
  have s2 := s1.tail (.spawn rfl)
  have s3 := s2.tail (.thread (List.cons_ne_nil _ _) Nat.zero_lt_one
    (fun _ hw => absurd hw List.not_mem_nil))
  have s4 := s3.tail (@Crew.Step.pick 2 1 _ [] [] false false 0 rfl (List.mem_cons_self ..))
  have s5 := s4.tail (@Crew.Step.act 2 1 _ [] [] _ _ _ _ rfl .get)
  have s6 := s5.tail (@Crew.Step.act 2 1 _ [] [] _ _ _ _ rfl .lock)
  have s7 := s6.tail (@Crew.Step.act 2 1 _ [] [] _ _ _ _ rfl (.register 0 (by decide)))
  have s8 := s7.tail (@Crew.Step.act 2 1 _ [] [] _ _ _ _ rfl (.index 0 (by decide)))
  have s9 := s8.tail (@Crew.Step.act 2 1 _ [] [] _ _ _ _ rfl .set)
  have s10 := s9.tail (@Crew.Step.act 2 1 _ [] [] _ _ _ _ rfl .unlock)
  have s11 := s10.tail (@Crew.Step.act 2 1 _ [] [] _ _ _ _ rfl .arrive)
  exact ⟨_,s11,rfl,rfl,prewarm_starves 2 1 [] (by decide) (by decide) _ s11⟩

end VclRs
