import VclRs.Prewarm.Muster

namespace VclRs

open Interaction

namespace Team

variable {n limit : ℕ} {T : Team} {C : Crew}

theorem arrived_mustered {h : Hand} (hf : h.Fit) (ha : h.arrived = true) : h.mustered = true := by
  obtain ⟨reg,called,post⟩ := h
  cases post with
  | none => cases ha
  | some x =>
    obtain ⟨task,arrived,s⟩ := x
    obtain ⟨harr,-,hreg,hcall⟩ := hf task arrived s rfl
    rcases harr ha with rfl | rfl
    · exact Bool.and_eq_true_iff.mpr ⟨hcall Shift.noConfusion,hreg (.inr (.inl rfl))⟩
    · exact Bool.and_eq_true_iff.mpr ⟨hcall Shift.noConfusion,hreg (.inr (.inr rfl))⟩

theorem sound_spawn (hT : T.Sound n) {k : ℕ → Duty} (h : T.leg.code = .call .taskSpawn k) :
    ∃ T' : Team, T'.Sound n ∧ T'.real = { T.real with
      caller := k T.spawned
      spawned := T.spawned + 1
      queue := T.queue ++ [T.spawned] } := by
  obtain ⟨hleg,hcover,hcensus,hlock,htally,hfit,hgate,hmuster⟩ := hT
  obtain ⟨leg',hcode,hon⟩ := Leg.on_spawn hleg h
  refine ⟨{ T with leg := leg', spawned := T.spawned + 1, queue := T.queue ++ [T.spawned] },
    ⟨hon,?_,?_,hlock,htally,hfit,hgate,hmuster⟩,?_⟩
  · intro i hi
    rcases Nat.lt_succ_iff_lt_or_eq.mp hi with hi | rfl
    · rcases hcover i hi with hq | hq
      · exact .inl (List.mem_append_left _ hq)
      · exact .inr hq
    · exact .inl (List.mem_append_right _ (List.mem_singleton_self _))
  · simp only [List.length_append,List.length_singleton]
    omega
  · simp only [real,hcode]

theorem sound_join (hT : T.Sound n) {task : ℕ} {k : Except String Unit → Duty}
    (h : T.leg.code = .call (.taskJoin task) k) (hf : task ∈ T.finished) :
    ∃ T' : Team, T'.Sound n ∧ T'.real = { T.real with caller := k (.ok ()) } := by
  obtain ⟨leg',hcode,hon⟩ := Leg.on_join hT.leg h hf
  refine ⟨{ T with leg := leg' },{ hT with leg := hon },?_⟩
  simp only [real,hcode]

def spare : Hand := ⟨false,false,none⟩

theorem sound_thread (hT : T.Sound n) : ∃ T' : Team, T'.Sound n ∧
    T'.real = { T.real with threads := T.real.threads ++ [⟨false,false,.idle⟩] } := by
  obtain ⟨hleg,hcover,hcensus,hlock,htally,hfit,hgate,hmuster⟩ := hT
  have hcount : ∀ f : Hand → Bool, f spare = false →
      (T.hands ++ [spare]).countP f = T.hands.countP f := by
    intro f hf
    simp [List.countP_append,hf]
  refine ⟨{ T with hands := T.hands ++ [spare] },⟨hleg,?_,?_,?_,?_,?_,?_,?_⟩,?_⟩
  · intro i hi
    rcases hcover i hi with hq | ⟨h,hh,hp⟩ | hq
    · exact .inl hq
    · exact .inr (.inl ⟨h,List.mem_append_left _ hh,hp⟩)
    · exact .inr (.inr hq)
  · rw [hcount Hand.busy rfl]
    exact hcensus
  · rw [hcount Hand.critical rfl]
    exact hlock
  · rw [hcount Hand.arrived rfl]
    exact htally
  · intro h hh
    rcases List.mem_append.mp hh with hh | hh
    · exact hfit h hh
    · rw [List.mem_singleton.mp hh]
      intro task a s hp
      cases hp
  · rintro (hf | ⟨h,hh,ht⟩)
    · exact hgate (.inl hf)
    · rcases List.mem_append.mp hh with hh | hh
      · exact hgate (.inr ⟨h,hh,ht⟩)
      · rw [List.mem_singleton.mp hh] at ht
        cases ht
  · rw [hcount Hand.mustered rfl]
    exact hmuster
  · simp only [real,List.map_append,List.map_singleton]
    rfl

section Replaced

variable {pre post : List Hand} {h h' : Hand}

theorem mem_replaced {x : Hand} (hx : x ∈ pre ++ h' :: post) :
    x = h' ∨ x ∈ pre ++ h :: post := by
  rcases List.mem_append.mp hx with hx | hx
  · exact .inr (List.mem_append_left _ hx)
  · rcases List.mem_cons.mp hx with rfl | hx
    · exact .inl rfl
    · exact .inr (List.mem_append_right _ (List.mem_cons_of_mem _ hx))

theorem cover_replaced {i : ℕ} (hk : ∀ a s, h.post = some (i,a,s) → ∃ a' s', h'.post = some (i,a',s'))
    (hx : ∃ x ∈ pre ++ h :: post, ∃ a s, x.post = some (i,a,s)) :
    ∃ x ∈ pre ++ h' :: post, ∃ a s, x.post = some (i,a,s) := by
  obtain ⟨x,hx,a,s,hp⟩ := hx
  rcases List.mem_append.mp hx with hx | hx
  · exact ⟨x,List.mem_append_left _ hx,a,s,hp⟩
  · rcases List.mem_cons.mp hx with rfl | hx
    · obtain ⟨a',s',hp'⟩ := hk a s hp
      exact ⟨h',List.mem_append_right _ (List.mem_cons_self ..),a',s',hp'⟩
    · exact ⟨x,List.mem_append_right _ (List.mem_cons_of_mem _ hx),a,s,hp⟩

end Replaced

theorem sound_pick (hT : T.Sound n) {pre post : List Hand} {reg called : Bool} {task : ℕ}
    (hh : T.hands = pre ++ ⟨reg,called,none⟩ :: post) (hq : task ∈ T.queue) :
    Sound n { T with
      hands := pre ++ ⟨reg,called,some (task,false,.entry)⟩ :: post
      queue := T.queue.erase task } := by
  obtain ⟨hleg,hcover,hcensus,hlock,htally,hfit,hgate,hmuster⟩ := hT
  rw [hh] at hcover hcensus hlock htally hfit hgate hmuster
  rw [countP_split] at hcensus hlock htally hmuster
  have hlen := List.length_erase_of_mem hq
  have hpos := List.length_pos_of_mem hq
  refine ⟨hleg,?_,?_,?_,?_,?_,?_,?_⟩
  · intro i hi
    rcases hcover i hi with hi | hi | hi
    · by_cases heq : i = task
      · subst heq
        exact .inr (.inl ⟨_,List.mem_append_right _ (List.mem_cons_self ..),_,_,rfl⟩)
      · exact .inl ((List.mem_erase_of_ne heq).mpr hi)
    · refine .inr (.inl (cover_replaced ?_ hi))
      intro a s hp
      cases hp
    · exact .inr (.inr hi)
  · simp only [countP_split,hlen]
    simp only [Hand.busy,Option.isSome_none,Bool.toNat_false] at hcensus
    simp only [Hand.busy,Option.isSome_some,Bool.toNat_true]
    omega
  · rw [countP_split]
    exact hlock
  · rw [countP_split]
    exact htally
  · intro x hx
    rcases mem_replaced (h := ⟨reg,called,none⟩) hx with rfl | hx
    · intro task' a s hp
      cases hp
      simp
    · exact hfit x hx
  · rintro (hf | ⟨x,hx,ht⟩)
    · exact hgate (.inl hf)
    · rcases mem_replaced (h := ⟨reg,called,none⟩) hx with rfl | hx
      · cases ht
      · exact hgate (.inr ⟨x,hx,ht⟩)
  · rw [countP_split]
    exact hmuster

theorem sound_act (hT : T.Sound n) {pre post : List Hand} {h h' : Hand} {locked : Bool}
    {arrivals : ℕ} (hh : T.hands = pre ++ h :: post)
    (hm : Moves n h T.locked T.arrivals h' locked arrivals) :
    Sound n { T with
      hands := pre ++ h' :: post
      locked := locked
      arrivals := arrivals } := by
  obtain ⟨hleg,hcover,hcensus,hlock,htally,hfit,hgate,hmuster⟩ := hT
  rw [hh] at hcover hcensus hlock htally hfit hgate hmuster
  have hmine : h.Fit := hfit h (List.mem_append_right _ (List.mem_cons_self ..))
  obtain ⟨task,a,s,a',s',hp,hp'⟩ := moves_post hm
  have hbusy : h'.busy = h.busy := by
    rw [Hand.busy,Hand.busy,hp,hp']
    rfl
  rw [countP_split] at hcensus hlock htally
  have hcrit := moves_critical hm (Nat.le_trans (Nat.le_add_left _ _) (Nat.le_of_eq hlock))
  have harr := moves_arrived hm
  obtain ⟨hmust,hmore⟩ := moves_mustered hm
  have hfit' : ∀ x ∈ pre ++ h' :: post, x.Fit := by
    intro x hx
    rcases mem_replaced (h := h) hx with rfl | hx
    · exact moves_fit hm hmine
    · exact hfit x hx
  have hgate' : T.finished ≠ [] ∨ (∃ x ∈ pre ++ h' :: post, x.through = true) → n ≤ arrivals := by
    rintro (hf | ⟨x,hx,ht⟩)
    · exact Nat.le_trans (hgate (.inl hf)) hmore
    · rcases mem_replaced (h := h) hx with rfl | hx
      · rcases moves_through hm ht with ht | hn
        · exact Nat.le_trans (hgate (.inr ⟨h,List.mem_append_right _ (List.mem_cons_self ..),ht⟩)) hmore
        · exact hn
      · exact Nat.le_trans (hgate (.inr ⟨x,hx,ht⟩)) hmore
  have htally' : arrivals = (pre ++ h' :: post).countP Hand.arrived + T.finished.length := by
    rw [countP_split]
    omega
  refine ⟨hleg,?_,?_,?_,htally',hfit',hgate',?_⟩
  · intro i hi
    rcases hcover i hi with hi | hi | hi
    · exact .inl hi
    · refine .inr (.inl (cover_replaced ?_ hi))
      intro b r hb
      rw [hp] at hb
      cases hb
      exact ⟨a',s',hp'⟩
    · exact .inr (.inr hi)
  · simp only [countP_split,hbusy]
    exact hcensus
  · simp only [countP_split]
    omega
  · intro hn
    simp only at hn ⊢
    by_cases hold : n ≤ T.arrivals
    · have hbefore := hmuster hold
      rw [countP_split] at hbefore ⊢
      omega
    · have hnone : T.finished = [] := by
        by_contra hf
        exact hold (hgate (.inl hf))
      rw [hnone] at htally'
      have hle := List.countP_mono_left (l := pre ++ h' :: post) (p := Hand.arrived)
        (q := Hand.mustered) (fun x hx ha => arrived_mustered (hfit' x hx) ha)
      simp only [List.length_nil,Nat.add_zero] at htally'
      omega

theorem sound_finish (hT : T.Sound n) {pre post : List Hand} {reg called arrived : Bool} {task : ℕ}
    (hh : T.hands = pre ++ ⟨reg,called,some (task,arrived,.done)⟩ :: post) :
    Sound n { T with
      hands := pre ++ ⟨reg,called,none⟩ :: post
      finished := task :: T.finished } := by
  obtain ⟨hleg,hcover,hcensus,hlock,htally,hfit,hgate,hmuster⟩ := hT
  rw [hh] at hcover hcensus hlock htally hfit hgate hmuster
  have hmem : ⟨reg,called,some (task,arrived,.done)⟩ ∈
      pre ++ ⟨reg,called,some (task,arrived,.done)⟩ :: post :=
    List.mem_append_right _ (List.mem_cons_self ..)
  have harr : arrived = true := (hfit _ hmem task arrived .done rfl).2.1 rfl
  subst harr
  rw [countP_split] at hcensus hlock htally hmuster
  have hopen : n ≤ T.arrivals := hgate (.inr ⟨_,hmem,rfl⟩)
  refine ⟨Leg.on_finish hleg,?_,?_,?_,?_,?_,fun _ => hopen,?_⟩
  · intro i hi
    rcases hcover i hi with hi | hi | hi
    · exact .inl hi
    · by_cases heq : i = task
      · exact .inr (.inr (heq ▸ List.mem_cons_self ..))
      · refine .inr (.inl (cover_replaced ?_ hi))
        intro a s hp
        cases hp
        exact absurd rfl heq
    · exact .inr (.inr (List.mem_cons_of_mem _ hi))
  · simp only [countP_split,List.length_cons]
    simp only [Hand.busy,Option.isSome_some,Bool.toNat_true] at hcensus
    simp only [Hand.busy,Option.isSome_none,Bool.toNat_false]
    omega
  · rw [countP_split]
    exact hlock
  · simp only [countP_split,List.length_cons]
    simp only [Hand.arrived,Option.any_some,Bool.toNat_true] at htally
    simp only [Hand.arrived,Option.any_none,Bool.toNat_false]
    omega
  · intro x hx
    rcases mem_replaced (h := ⟨reg,called,some (task,true,.done)⟩) hx with rfl | hx
    · intro task' a s hp
      cases hp
    · exact hfit x hx
  · rw [countP_split]
    exact hmuster

theorem sound_step (hT : T.Sound n) (hs : Crew.Step n limit T.real C) :
    ∃ T' : Team, T'.Sound n ∧ T'.real = C := by
  cases hs with
  | spawn h => exact sound_spawn hT h
  | join h hf => exact sound_join hT h hf
  | thread hq hl hi => exact sound_thread hT
  | pick ht hq =>
    obtain ⟨pre,⟨reg,called,station⟩,post,hh,rfl,hw,rfl⟩ := map_real_split ht
    cases station with
    | none =>
      cases hw
      refine ⟨_,sound_pick hT hh hq,?_⟩
      simp only [real,List.map_append,List.map_cons,Shift.entry_code]
      rfl
    | some x => cases hw
  | act ht ha =>
    obtain ⟨pre,hand,post,hh,rfl,rfl,rfl⟩ := map_real_split ht
    obtain ⟨hand',rfl,hm⟩ := Hand.moves ha
    refine ⟨_,sound_act hT hh hm,?_⟩
    simp only [real,List.map_append,List.map_cons]
  | finish ht =>
    obtain ⟨pre,⟨reg,called,station⟩,post,hh,rfl,hw,rfl⟩ := map_real_split ht
    cases station with
    | none => cases hw
    | some x =>
      obtain ⟨task,arrived,s⟩ := x
      cases s with
      | done =>
        cases hw
        refine ⟨_,sound_finish hT hh,?_⟩
        simp only [real,List.map_append,List.map_cons]
        rfl
      | entry | lock | register | index | enrol | unlock | barrier => cases hw

def fresh (n : ℕ) (flags : List Bool) : Team where
  leg := .spawning [] n
  spawned := 0
  queue := []
  hands := flags.map (fun registered => ⟨registered,false,none⟩)
  locked := false
  arrivals := 0
  finished := []

theorem sound_fresh (hn : 0 < n) (flags : List Bool) : (fresh n flags).Sound n := by
  have hidle : ∀ h ∈ (fresh n flags).hands, h.post = none := by
    intro h hh
    obtain ⟨registered,-,rfl⟩ := List.mem_map.mp hh
    rfl
  have hnone : ∀ f : Hand → Bool, (∀ h : Hand, h.post = none → f h = false) →
      (fresh n flags).hands.countP f = 0 := by
    intro f hf
    apply List.countP_eq_zero.mpr
    intro h hh
    rw [hf h (hidle h hh)]
    exact Bool.false_ne_true
  refine ⟨⟨hn,rfl,Nat.zero_add n⟩,?_,?_,?_,?_,?_,?_,?_⟩
  · intro i hi
    cases hi
  · rw [hnone Hand.busy (fun h hp => by rw [Hand.busy,hp]; rfl)]
    rfl
  · rw [hnone Hand.critical (fun h hp => by rw [Hand.critical,hp]; rfl)]
    rfl
  · rw [hnone Hand.arrived (fun h hp => by rw [Hand.arrived,hp]; rfl)]
    rfl
  · intro h hh task a s hp
    rw [hidle h hh] at hp
    cases hp
  · rintro (hf | ⟨h,hh,ht⟩)
    · exact absurd rfl hf
    · rw [Hand.through,hidle h hh] at ht
      cases ht
  · intro hle
    exact absurd hn (Nat.not_lt_of_le hle)

theorem sound_reach {flags : List Bool} (hn : 0 < n) (h : Crew.Reach n limit flags C) :
    ∃ T : Team, T.Sound n ∧ T.real = C := by
  induction h with
  | refl =>
    refine ⟨_,sound_fresh hn flags,?_⟩
    simp only [real,fresh,Crew.start,prewarm_code hn,List.map_map]
    rfl
  | tail _ hs ih =>
    obtain ⟨T,hT,rfl⟩ := ih
    exact sound_step hT hs

end Team

end VclRs
