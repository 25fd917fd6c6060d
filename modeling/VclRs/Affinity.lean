import VclRs.Custody.Charge
import VclRs.Rehearsal
import Mathlib.Data.Multiset.Bind

namespace VclRs

open Interaction Fallible

def crossing (k : Job) (e : Ev) : Bool :=
  match k.api, e with
  | .streamConnect _ _ _ _, ⟨.sessionConnect _ _,rc⟩ => decide (¬ rc < 0)
  | _, _ => false

def Homebound (k : Job) (e : Ev) : Prop :=
  crossing k e = false ∧ (k.api.binding = true → refused e = 0)

instance instDecidableHomebound (k : Job) (e : Ev) : Decidable (Homebound k e) :=
  inferInstanceAs (Decidable (crossing k e = false ∧ (k.api.binding = true → refused e = 0)))

def Fresh (log : List Entry) (e : Ev) : Prop :=
  ∀ sh ∈ obtained e, sh ∉ opened (events log) - closed (events log)

instance instDecidableFresh (log : List Entry) (e : Ev) : Decidable (Fresh log e) :=
  @Multiset.decidableForallMultiset Handle (obtained e) _ (fun sh =>
    inferInstanceAs (Decidable (sh ∉ opened (events log) - closed (events log))))

def tagged (os : Multiset (Thread × Obj)) : Multiset (Thread × Handle) :=
  (os.map (fun x => x.2.handles.map (Prod.mk x.1))).sum

def Job.post (k : Job) : Terms (Thread × Handle) where
  key := Prod.mk
  home := k.home
  lent sh := ∃ o ∈ k.api.lends, sh ∈ o.handles
  disputes := false
  rely := Homebound k

def Covered (os : Multiset (Thread × Obj)) (s : Holding Thread (Thread × Handle)) : Prop :=
  tagged os ≤ s.owed

section Keeping

variable [Platform]

def crate (meets : Job → Ev → Prop) : System Call Reply Job (Thread × Obj) :=
  world (fun _ => True) (fun log k e => meets k e ∧ Fresh log e)

theorem crate_keeps (k : Job) : k.post.custody.wp (yielding k.home k.api.call) Covered
    ⟨k.home,tagged (k.api.takes.map (Prod.mk k.home))⟩ := by
  have hfails : k.api.dials = true → ∀ sh ep rc, k.post.rely ⟨.sessionConnect sh ep,rc⟩ → rc < 0 := by
    intro hd sh ep rc h
    have hc := h.1
    obtain ⟨api,home⟩ := k
    cases api <;> cases hd
    simpa [crossing] using hc
  have hsuits : k.post.Suits k := ⟨rfl,fun o ho _ hsh => ⟨o,ho,hsh⟩,rfl,
    fun hb => .inr (fun _ h => h.2 hb),fun hd => .inr (hfails hd)⟩
  exact Terms.call_charged hsuits

end Keeping

def threadOf (x : Entry) : Thread := x.past.foldl (resumed x.kind.home) x.kind.home

def used (e : Ev) : Multiset Handle :=
  (match subject e.op with
    | some sh => {sh}
    | none => 0) + released e

def holder (sh : Handle) (log : List Entry) : Option Thread :=
  log.foldl (fun t x => if sh ∈ obtained x.event then some (threadOf x) else t) none

def Affine (log : List Entry) : Prop :=
  ∀ i (h : i < log.length), ∀ sh ∈ used log[i].event, holder sh (log.take i) = some (threadOf log[i])

instance instDecidableAffine (log : List Entry) : Decidable (Affine log) :=
  @Nat.decidableBallLT log.length _ (fun i _ =>
    @Multiset.decidableForallMultiset Handle (used log[i].event) _ (fun sh =>
      inferInstanceAs (Decidable (holder sh (log.take i) = some (threadOf log[i])))))

section Books

variable [Platform]

def posted : Accord (crate Homebound) (Holding Thread (Thread × Handle)) where
  contract k := k.post.custody
  init k := ⟨k.home,tagged (k.api.takes.map (Prod.mk k.home))⟩
  post _ := Covered
  keeps k _ := crate_keeps k
  relies _ _ _ _ h := h.1

theorem posted_site (k : Job) (past : List Ev) (e : Ev) :
    (posted.state k past).site = threadOf ⟨k,past,e⟩ := by
  have hafter (s : Holding Thread (Thread × Handle)) :
      (k.post.custody.after s past).site = past.foldl (resumed k.home) s.site := by
    induction past generalizing s with
    | nil => rfl
    | cons e past ih =>
      rw [Contract.after_cons,ih]
      rfl
  exact hafter _

def gainedBy (x : Entry) : Multiset (Thread × Handle) :=
  (obtained x.event).map (Prod.mk (threadOf x))

def lostBy (x : Entry) : Multiset (Thread × Handle) :=
  (released x.event).map (Prod.mk (threadOf x))

theorem posted_act (k : Job) (past : List Ev) (e : Ev)
    (h : k.post.custody.guar (posted.state k past) e) :
    (k.post.custody.next (posted.state k past) e).owed + lostBy ⟨k,past,e⟩ =
      (posted.state k past).owed + gainedBy ⟨k,past,e⟩ := by
  have hsite := posted_site k past e
  have hle : (released e).map (Prod.mk (posted.state k past).site) ≤ (posted.state k past).owed := h.1
  have hnext : (k.post.custody.next (posted.state k past) e).owed = (posted.state k past).owed -
      (released e).map (Prod.mk (posted.state k past).site) +
      (obtained e + 0).map (Prod.mk (posted.state k past).site) := rfl
  rw [hnext,add_zero,lostBy,gainedBy,← hsite,add_right_comm,tsub_add_cancel_of_le hle]

def ownership : posted.Book (Multiset (Thread × Handle)) where
  hold s := s.owed
  worth x := x.2.handles.map (Prod.mk x.1)
  gain := gainedBy
  loss := lostBy
  rel := (· ≤ ·)
  rel_refl := le_refl
  rel_trans _ _ _ := le_trans
  rel_add _ _ c h := add_le_add_left h c
  start _ _ := le_refl _
  act k past e h := (posted_act k past e h).le
  finish _ _ _ h := h

def held (log : List Entry) : Multiset (Thread × Handle) :=
  (log.map gainedBy).sum - (log.map lostBy).sum

theorem total_held {p : Pool Call Reply Job (Thread × Obj)} (h : (crate Homebound).Reach 0 p) :
    ownership.total p + (p.log.map lostBy).sum ≤ (p.log.map gainedBy).sum := by
  have hc : ownership.total p + (p.log.map lostBy).sum ≤
      ((0 : Multiset (Thread × Obj)).map ownership.worth).sum + (p.log.map gainedBy).sum :=
    ownership.conserved h
  rw [Multiset.map_zero,Multiset.sum_zero,zero_add] at hc
  exact hc

end Books

section Holding

theorem gained_numbers (log : List Entry) :
    ((log.map gainedBy).sum).map Prod.snd = opened (events log) := by
  induction log with
  | nil => rfl
  | cons x log ih =>
    have hx : (gainedBy x).map Prod.snd = obtained x.event := by
      rw [gainedBy,Multiset.map_map]
      exact Multiset.map_id _
    rw [List.map_cons,List.sum_cons,Multiset.map_add,ih,hx]
    rfl

theorem lost_numbers (log : List Entry) :
    ((log.map lostBy).sum).map Prod.snd = closed (events log) := by
  induction log with
  | nil => rfl
  | cons x log ih =>
    have hx : (lostBy x).map Prod.snd = released x.event := by
      rw [lostBy,Multiset.map_map]
      exact Multiset.map_id _
    rw [List.map_cons,List.sum_cons,Multiset.map_add,ih,hx]
    rfl

theorem held_numbers {log : List Entry} (h : (log.map lostBy).sum ≤ (log.map gainedBy).sum) :
    (held log).map Prod.snd = opened (events log) - closed (events log) := by
  have hsum : held log + (log.map lostBy).sum = (log.map gainedBy).sum := tsub_add_cancel_of_le h
  have hmap := congrArg (Multiset.map Prod.snd) hsum
  rw [Multiset.map_add,gained_numbers,lost_numbers] at hmap
  rw [← hmap,add_tsub_cancel_right]

theorem held_concat {log : List Entry} {x : Entry} {t : Thread} {sh : Handle}
    (h : (t,sh) ∈ held (log ++ [x])) (hg : (t,sh) ∉ gainedBy x) : (t,sh) ∈ held log := by
  rw [held,List.map_append,List.map_append,List.sum_append,List.sum_append,List.map_singleton,
    List.map_singleton,List.sum_singleton,List.sum_singleton,← Multiset.count_pos,
    Multiset.count_sub,Multiset.count_add,Multiset.count_add,Multiset.count_eq_zero_of_notMem hg] at h
  rw [held,← Multiset.count_pos,Multiset.count_sub]
  omega

theorem holder_concat (sh : Handle) (log : List Entry) (x : Entry) : holder sh (log ++ [x]) =
    if sh ∈ obtained x.event then some (threadOf x) else holder sh log := by
  rw [holder,List.foldl_append]
  rfl

theorem holder_act {log : List Entry} {x : Entry} (hf : Fresh log x.event)
    (hle : (log.map lostBy).sum ≤ (log.map gainedBy).sum)
    (ih : ∀ t sh, (t,sh) ∈ held log → holder sh log = some t) (t : Thread) (sh : Handle)
    (h : (t,sh) ∈ held (log ++ [x])) : holder sh (log ++ [x]) = some t := by
  rw [holder_concat]
  by_cases hg : (t,sh) ∈ gainedBy x
  · obtain ⟨sh',hsh,heq⟩ := Multiset.mem_map.mp hg
    cases heq
    rw [if_pos hsh]
  · have hheld := held_concat h hg
    have hopen : sh ∈ opened (events log) - closed (events log) := by
      rw [← held_numbers hle]
      exact Multiset.mem_map_of_mem Prod.snd hheld
    have hnew : sh ∉ obtained x.event := fun hsh => hf sh hsh hopen
    rw [if_neg hnew]
    exact ih t sh hheld

variable [Platform] {p : Pool Call Reply Job (Thread × Obj)}

theorem held_holder (h : (crate Homebound).Reach 0 p) :
    ∀ t sh, (t,sh) ∈ held p.log → holder sh p.log = some t := by
  induction h with
  | refl =>
    intro t sh hh
    exact absurd hh (Multiset.notMem_zero _)
  | tail hr hs ih =>
    cases hs with
    | start k hk hl hf => exact ih
    | finish hret => exact ih
    | act hstep ha =>
      have hle := le_trans (Multiset.le_add_left _ _) (total_held hr)
      exact holder_act ha.2 hle ih

omit [Platform] in
theorem used_may {k : Job} {s : Holding Thread (Thread × Handle)} {e : Ev} {sh : Handle}
    (hg : k.post.custody.guar s e) (hu : sh ∈ used e) : k.post.ledger.May s (s.site,sh) := by
  rcases Multiset.mem_add.mp hu with hsub | hrel
  · apply hg.2
    cases hop : subject e.op with
    | none =>
      rw [hop] at hsub
      exact absurd hsub (Multiset.notMem_zero sh)
    | some x =>
      rw [hop] at hsub
      obtain rfl : sh = x := Multiset.mem_singleton.mp hsub
      exact ⟨sh,hop,rfl⟩
  · exact .inl (Multiset.mem_of_le hg.1 (Multiset.mem_map_of_mem _ hrel))

theorem may_total {tasks : Multiset (Task Call Reply Job (Thread × Obj))}
    {objs : Multiset (Thread × Obj)} {log : List Entry} {k : Job} {past : List Ev}
    {q : Prog Call Reply (Multiset (Thread × Obj))} {sh : Handle}
    (h : (crate Homebound).Reach 0 ⟨⟨k,past,q⟩ ::ₘ tasks,objs,log⟩)
    (hm : k.post.ledger.May (posted.state k past) ((posted.state k past).site,sh)) :
    ((posted.state k past).site,sh) ∈ ownership.total ⟨⟨k,past,q⟩ ::ₘ tasks,objs,log⟩ := by
  rcases hm with howed | ⟨hsite,x,⟨o,ho,hx⟩,heq⟩
  · exact Multiset.mem_add.mpr (.inl (Multiset.mem_bind.mpr ⟨_,Multiset.mem_cons_self _ _,howed⟩))
  · obtain rfl : sh = x := congrArg Prod.snd heq
    have hobj : (k.home,o) ∈ objs := System.lent_present h _ (Multiset.mem_cons_self _ _) _
      (Multiset.mem_map_of_mem _ ho)
    refine Multiset.mem_add.mpr (.inr (Multiset.mem_bind.mpr ⟨_,hobj,?_⟩))
    rw [hsite]
    exact Multiset.mem_map_of_mem _ hx

theorem sessions_affine (p : Pool Call Reply Job (Thread × Obj)) (h : (crate Homebound).Reach 0 p) :
    Affine p.log := by
  intro i hi sh hu
  have hlog : p.log = p.log.take i ++ p.log[i] :: p.log.drop (i + 1) := by simp
  obtain ⟨tasks,objs,q,q',hreach,hstep,ha⟩ := System.reach_record h hlog
  have hsound := posted.sound_reach hreach _ (Multiset.mem_cons_self _ _)
  have hg := (posted.sound_act hsound hstep ha).1
  have htotal := may_total hreach (used_may hg hu)
  have hheld := Multiset.mem_of_le (le_tsub_of_add_le_right (total_held hreach)) htotal
  rw [posted_site _ _ p.log[i].event] at hheld
  exact held_holder hreach _ _ hheld

end Holding

def twoThreads (_ : ℕ) (c : Call) : Reply c :=
  match c with
  | .sessionCreate _ nonblocking => if nonblocking then (1 : Int) else (3 : Int)
  | c => obliging c

def opensReactor : Job := ⟨.reactorNew,0⟩
def dialsHome : Job := ⟨.streamConnectAsync (.new .unspecifiedV4 53) none ⟨2⟩ 5,0⟩

theorem connectAsync_affine : ∃ p, (@crate host Homebound).Reach 0 p ∧
    holder 1 p.log = some 0 ∧ Affine p.log := by
  have h₀ : (@crate host Homebound).Reach 0 ⟨0,0,[]⟩ := .refl
  have h₁ := world_call h₀ opensReactor {.reactor ⟨2⟩} 0 twoThreads trivial rfl (by decide)
    (by decide +kernel) (by decide +kernel)
  have h₂ := world_call h₁ dialsHome {.stream ⟨1,⟨2⟩⟩} 0 twoThreads trivial rfl (by decide)
    (by decide +kernel) (by decide +kernel)
  exact ⟨_,h₂,by decide +kernel,@sessions_affine host _ h₂⟩

def dialsAcross : Job := ⟨.streamConnect (.new .unspecifiedV4 53) none 5 ⟨2⟩,0⟩

theorem connect_crosses_threads : ∃ p, (@crate host (fun _ _ => True)).Reach 0 p ∧
    p.objects = {(0,.stream ⟨3,⟨2⟩⟩)} ∧ holder 3 p.log = some 1 ∧ ¬ Affine p.log := by
  have h₀ : (@crate host (fun _ _ => True)).Reach 0 ⟨0,0,[]⟩ := .refl
  have h₁ := world_call h₀ opensReactor {.reactor ⟨2⟩} 0 twoThreads trivial rfl (by decide)
    (by decide +kernel) (by decide +kernel)
  have h₂ := world_call h₁ dialsAcross {.stream ⟨3,⟨2⟩⟩} 0 twoThreads trivial rfl (by decide)
    (by decide +kernel) (by decide +kernel)
  exact ⟨_,h₂,rfl,by decide +kernel,by decide +kernel⟩

end VclRs
