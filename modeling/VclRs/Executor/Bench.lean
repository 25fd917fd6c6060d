import Mathlib.Algebra.Group.PUnit
import VclRs.Model.Dns
import VclRs.Parking.Registry
import VclRs.Wakeups.Runtime

namespace VclRs

open Interaction

abbrev Berth := Side × VclStream

inductive Party where
  | lane (i : ℕ)
  | slot (s : Berth)
deriving DecidableEq

inductive Ending where
  | ok
  | pending
  | failed (e : VclError)
  | ioFailed (e : IoError)
  | dropped
deriving DecidableEq

abbrev Routine := Prog Call Reply Ending

def concluded {α : Type} : Except Stop α → Ending
  | .ok _ => .ok
  | .error (.err e) => .failed e
  | .error .dropped => .dropped

def pollConcluded {α : Type} : Except Stop (Poll (Except IoError α) × Bool) → Ending
  | .ok (.pending,_) => .pending
  | .ok (.ready (.ok _),_) => .ok
  | .ok (.ready (.error e),_) => .ioFailed e
  | .error (.err e) => .failed e
  | .error .dropped => .dropped

def resolved : Except Stop Unit → Option (Except VclError Unit)
  | .ok a => some (.ok a)
  | .error (.err e) => some (.error e)
  | .error .dropped => none

inductive Chore where
  | read (st : VclStream) (buf : List UInt8)
  | writeAll (st : VclStream) (buf : List UInt8)
  | sendTo (d : VclDgramSocket) (buf : List UInt8) (dst : SocketAddr)
  | pollRead (st : VclStream) (cx : ℕ) (unfilled : List UInt8)
  | pollWrite (st : VclStream) (cx : ℕ) (buf : List UInt8)
  | connectAsync (addr : SocketAddr) (source : Option SocketAddr) (r : VclReactor)
      (timeout : Duration)
  | other (p : Routine)

namespace Chore

def slot : Chore → Option Berth
  | .pollRead st _ _ => some (.readable,st)
  | .pollWrite st _ _ => some (.writable,st)
  | _ => none

def code [Platform] (stored : Bool) : Chore → Routine
  | .read st buf => (st.read buf).prog.bind (fun r => .ret (concluded r))
  | .writeAll st buf => (st.writeAll buf).prog.bind (fun r => .ret (concluded r))
  | .sendTo d buf dst => (d.sendTo buf dst).prog.bind (fun r => .ret (concluded r))
  | .pollRead st cx unfilled =>
    (st.pollRead stored cx unfilled).prog.bind (fun r => .ret (pollConcluded r))
  | .pollWrite st cx buf => (st.pollWrite stored cx buf).prog.bind (fun r => .ret (pollConcluded r))
  | .connectAsync addr source r timeout =>
    (VclStream.connectAsync addr source r timeout).prog.bind (fun r => .ret (concluded r))
  | .other p => p

end Chore

structure Lane where
  chore : Chore
  past : List Ev
  code : Routine

namespace Lane

def advance (l : Lane) (e : Ev) (q : Routine) : Lane := ⟨l.chore,l.past ++ [e],q⟩

def arms (l : Lane) : Ev → Option (Berth × Code)
  | ⟨.instantNow,now⟩ => l.chore.slot.bind (fun s => (l.past.getLast?.bind granted).map
      (fun n => (s,(s.2.reactor.waitLoop n (now + secs 300)).prog)))
  | _ => none

end Lane

structure Bench where
  clock : Instant
  waiters : List ((Handle × Handle) × NotifyId)
  made : ℕ
  notifies : NotifyId → Notify Party Unit
  lanes : List Lane
  slots : Berth → Option Code
  log : List (Party × Ev)

namespace Bench

def idle : Bench := ⟨0,[],0,fun _ => .new,[],fun _ => none,[]⟩

def settle (R : Bench) (n : NotifyId) (N : Notify Party Unit) : Bench :=
  { R with notifies := Function.update R.notifies n N }

def posts (R : Bench) : Call → List NotifyId
  | .notifyOne vep sh => (R.waiters.lookup (vep,sh)).toList
  | .notifyEvery vep => (R.waiters.filter (fun x => x.1.1 = vep)).map Prod.snd
  | _ => []

def post (R : Bench) (n : NotifyId) : Bench := R.settle n ((R.notifies n).notifyOne ())

def enter (R : Bench) (key : Handle × Handle) (n : NotifyId) : Option Bench :=
  match R.waiters.lookup key with
  | some m => if n = m then some R else none
  | none =>
    if n = R.made then some { R with waiters := (key,n) :: R.waiters, made := R.made + 1 }
    else none

def hear (R : Bench) (w : Party) (n : NotifyId) : Option Bench :=
  match (R.notifies n).poll w with
  | (some _,N) => some (R.settle n N)
  | (none,_) => none

def abandon (R : Bench) (w : Party) (n : NotifyId) : Bench := R.settle n ((R.notifies n).abandon w)

def select (R : Bench) (w : Party) (n : NotifyId) (d : Instant) : Selected → Option Bench
  | .notified => R.hear w n
  | .elapsed => if d ≤ R.clock then some (R.abandon w n) else none
  | .readable => some (R.abandon w n)
  | .readFailed _ => some (R.abandon w n)
  | .dropped => some (R.abandon w n)

def recheck (R : Bench) (w : Party) (n : NotifyId) : Rechecked → Option Bench
  | .notified => R.hear w n
  | .elapsed => if w ∈ (R.notifies n).members then some (R.abandon w n) else none
  | .dropped => some (R.abandon w n)

def touch (R : Bench) (w : Party) : Ev → Option Bench
  | ⟨.waitersEntry vep sh,n⟩ => R.enter (vep,sh) n
  | ⟨.waitersRemove vep sh,_⟩ =>
    some { R with waiters := R.waiters.filter (fun x => x.1 ≠ (vep,sh)) }
  | ⟨.notifyOne vep sh,_⟩ => some ((R.posts (.notifyOne vep sh)).foldl post R)
  | ⟨.notifyEvery vep,_⟩ => some ((R.posts (.notifyEvery vep)).foldl post R)
  | ⟨.instantNow,now⟩ => if now = R.clock then some R else none
  | ⟨.select _ n d,(now,x)⟩ => if now = R.clock then R.select w n d x else none
  | ⟨.recheck n,(now,x)⟩ => if now = R.clock then R.recheck w n x else none
  | _ => some R

def polls : Call → Bool
  | .waitPoll _ _ => true
  | _ => false

theorem unpolled {c : Call} (h : polls c = false) (sh : Handle) (cx : ℕ) : c ≠ .waitPoll sh cx := by
  rintro rfl
  cases h

def fill (R : Bench) (s : Berth) (p : Option Code) : Bench :=
  { R with slots := Function.update R.slots s p }

def store (R : Bench) : Option (Berth × Code) → Bench
  | some (s,p) => R.fill s (some p)
  | none => R

def resume (R : Bench) (i : ℕ) (l : Lane) : Bench := { R with lanes := R.lanes.set i l }

def note (R : Bench) (w : Party) (e : Ev) : Bench := { R with log := R.log ++ [(w,e)] }

end Bench

def Awaits {α : Type} (p : Prog Call Reply α) (n : NotifyId) : Prop :=
  ∃ o k, p.Head o k ∧ awaited o = some n

namespace Bench

inductive Step [Platform] (R : Bench) : Bench → Prop
  | spawn (d : Chore) :
      Step R { R with lanes := R.lanes ++ [⟨d,[],d.code (d.slot.bind R.slots).isSome⟩] }
  | elapse (t : Duration) : Step R { R with clock := R.clock + t }
  | act {i : ℕ} {l : Lane} {e : Ev} {q : Routine} {T : Bench} (hl : R.lanes[i]? = some l)
      (hs : Prog.Step l.code e q) (he : ∀ sh cx, e.op ≠ .waitPoll sh cx)
      (ht : R.touch (.lane i) e = some T) :
      Step R (((T.store (l.arms e)).resume i (l.advance e q)).note (.lane i) e)
  | pend {i : ℕ} {l : Lane} {n : NotifyId} {N : Notify Party Unit} (hl : R.lanes[i]? = some l)
      (hw : Awaits l.code n) (hN : (R.notifies n).poll (.lane i) = (none,N)) :
      Step R (R.settle n N)
  | inner {i : ℕ} {l : Lane} {s : Berth} {sh : Handle} {cx : ℕ}
      {k : Reply (.waitPoll sh cx) → Routine} {p p' : Code} {e : Ev} {T : Bench} {n : Call}
      {k' : Reply n → Code} (hl : R.lanes[i]? = some l) (hs : l.chore.slot = some s)
      (hk : l.code.Head (.waitPoll sh cx) k) (hp : R.slots s = some p) (hp' : Prog.Step p e p')
      (hgo : p'.Head n k') (ht : R.touch (.slot s) e = some T) :
      Step R ((T.fill s (some p')).note (.slot s) e)
  | ready {i : ℕ} {l : Lane} {s : Berth} {sh : Handle} {cx : ℕ}
      {k : Reply (.waitPoll sh cx) → Routine} {p p' : Code} {e : Ev} {T : Bench}
      {r : Except Stop Unit} {v : Except VclError Unit} (hl : R.lanes[i]? = some l)
      (hs : l.chore.slot = some s) (hk : l.code.Head (.waitPoll sh cx) k) (hp : R.slots s = some p)
      (hp' : Prog.Step p e p') (hr : p'.Returns r) (hv : resolved r = some v)
      (ht : R.touch (.slot s) e = some T) :
      Step R (((T.fill s none).resume i (l.advance ⟨.waitPoll sh cx,.ready v⟩ (k (.ready v)))).note
        (.slot s) e)
  | pending {i : ℕ} {l : Lane} {s : Berth} {sh : Handle} {cx : ℕ}
      {k : Reply (.waitPoll sh cx) → Routine} {p : Code} {n : NotifyId} {N : Notify Party Unit}
      (hl : R.lanes[i]? = some l) (hs : l.chore.slot = some s)
      (hk : l.code.Head (.waitPoll sh cx) k) (hp : R.slots s = some p) (hw : Awaits p n)
      (hN : (R.notifies n).poll (.slot s) = (none,N)) :
      Step R ((R.settle n N).resume i (l.advance ⟨.waitPoll sh cx,.pending⟩ (k .pending)))
  | discard {s : Berth} {p : Code} {n : NotifyId} (hp : R.slots s = some p) (hw : Awaits p n) :
      Step R ((R.abandon (.slot s) n).fill s none)

theorem store_frame (R : Bench) (x : Option (Berth × Code)) :
    ∃ S, R.store x = { R with slots := S } := by
  cases x with
  | none => exact ⟨R.slots,rfl⟩
  | some x => exact ⟨_,rfl⟩

abbrev Trail [Platform] (run : List Bench) : Prop := (idle :: run).IsChain Step

abbrev Later [Platform] : Bench → Bench → Prop := Relation.ReflTransGen Step

section Touching

variable {R T : Bench} {w : Party} {e : Ev} {n : NotifyId}

theorem posts_other {ns : List NotifyId} (h : n ∉ ns) : (ns.foldl post R).notifies n = R.notifies n := by
  induction ns generalizing R with
  | nil => rfl
  | cons m ns ih =>
    rw [List.mem_cons,not_or] at h
    rw [List.foldl_cons,ih h.2]
    exact Function.update_of_ne h.1 _ _

theorem foldl_post_frame (ns : List NotifyId) (R : Bench) :
    ∃ N, ns.foldl post R = { R with notifies := N } := by
  induction ns generalizing R with
  | nil => exact ⟨R.notifies,rfl⟩
  | cons m ns ih =>
    obtain ⟨N,hN⟩ := ih (R.post m)
    exact ⟨N,by rw [List.foldl_cons,hN]; rfl⟩

theorem enter_frame {key : Handle × Handle} (h : R.enter key n = some T) :
    ∃ W m, T = { R with waiters := W, made := m } := by
  rw [enter] at h
  split at h
  · split_ifs at h
    cases h
    exact ⟨_,_,rfl⟩
  · split_ifs at h
    cases h
    exact ⟨_,_,rfl⟩

theorem hear_some (h : R.hear w n = some T) :
    ∃ N x, (R.notifies n).poll w = (some x,N) ∧ T = R.settle n N := by
  rw [hear] at h
  split at h
  · next x N hN =>
    cases h
    exact ⟨N,x,hN,rfl⟩
  · cases h

inductive Touches (R : Bench) (w : Party) (e : Ev) : Bench → Prop
  | books (W : List ((Handle × Handle) × NotifyId)) (m : ℕ) :
      Touches R w e { R with waiters := W, made := m }
  | posts : Touches R w e ((R.posts e.op).foldl post R)
  | hears {n : NotifyId} {N : Notify Party Unit} {x : Unit} (hw : awaited e.op = some n)
      (hh : heard e = true) (hN : (R.notifies n).poll w = (some x,N)) : Touches R w e (R.settle n N)
  | abandons {n : NotifyId} (hw : awaited e.op = some n) (hh : heard e = false) :
      Touches R w e (R.abandon w n)

theorem touch_touches (h : R.touch w e = some T) : Touches R w e T := by
  obtain ⟨op,x⟩ := e
  have hsame (h : some R = some T) : Touches R w ⟨op,x⟩ T := by
    cases h
    exact .books R.waiters R.made
  cases op with
  | waitersEntry vep sh =>
    obtain ⟨W,m,rfl⟩ := enter_frame h
    exact .books W m
  | waitersRemove vep sh =>
    cases h
    exact .books _ R.made
  | notifyOne vep sh =>
    cases h
    exact .posts
  | notifyEvery vep =>
    cases h
    exact .posts
  | instantNow =>
    change (if x = R.clock then some R else none) = some T at h
    split_ifs at h
    exact hsame h
  | select v n d =>
    obtain ⟨now,x⟩ := x
    change (if now = R.clock then R.select w n d x else none) = some T at h
    split_ifs at h
    cases x with
    | notified =>
      obtain ⟨N,x,hN,rfl⟩ := hear_some h
      exact .hears rfl rfl hN
    | elapsed =>
      rw [select] at h
      split_ifs at h
      cases h
      exact .abandons rfl rfl
    | _ =>
      cases h
      exact .abandons rfl rfl
  | recheck n =>
    obtain ⟨now,x⟩ := x
    change (if now = R.clock then R.recheck w n x else none) = some T at h
    split_ifs at h
    cases x with
    | notified =>
      obtain ⟨N,x,hN,rfl⟩ := hear_some h
      exact .hears rfl rfl hN
    | elapsed =>
      rw [recheck] at h
      split_ifs at h
      cases h
      exact .abandons rfl rfl
    | dropped =>
      cases h
      exact .abandons rfl rfl
  | _ => exact hsame h

theorem touches_frame (h : Touches R w e T) :
    ∃ W m N, T = { R with waiters := W, made := m, notifies := N } := by
  cases h with
  | books W m => exact ⟨W,m,R.notifies,rfl⟩
  | posts =>
    obtain ⟨N,hN⟩ := foldl_post_frame (R.posts e.op) R
    exact ⟨R.waiters,R.made,N,hN⟩
  | hears => exact ⟨_,_,_,rfl⟩
  | abandons => exact ⟨_,_,_,rfl⟩

theorem touch_store_frame (h : R.touch w e = some T) (x : Option (Berth × Code)) :
    ∃ W m N S, T.store x = { R with waiters := W, made := m, notifies := N, slots := S } := by
  obtain ⟨W,m,N,rfl⟩ := touches_frame (touch_touches h)
  obtain ⟨S,hS⟩ := store_frame { R with waiters := W, made := m, notifies := N } x
  exact ⟨W,m,N,S,hS⟩

theorem settle_empty {m : NotifyId} {N : Notify Party Unit} (h : (R.notifies n).holdings = 0)
    (hN : (R.notifies m).holdings = 0 → N.holdings = 0) :
    ((R.settle m N).notifies n).holdings = 0 := by
  by_cases hm : n = m
  · subst hm
    change (Function.update R.notifies n N n).holdings = 0
    rw [Function.update_self]
    exact hN h
  · change (Function.update R.notifies m N n).holdings = 0
    rw [Function.update_of_ne hm]
    exact h

theorem touches_empty (h : Touches R w e T) (hn : n ∉ R.posts e.op)
    (hz : (R.notifies n).holdings = 0) : (T.notifies n).holdings = 0 := by
  cases h with
  | books W m => exact hz
  | posts =>
    rw [posts_other hn]
    exact hz
  | hears hw hh hN =>
    apply settle_empty hz
    intro hm
    rw [(Notify.poll_ready hN).1] at hm
    cases Multiset.cons_ne_zero hm
  | abandons hw hh => exact settle_empty hz (Notify.abandon_empty w)

theorem touch_heard (h : R.touch w e = some T) (hw : awaited e.op = some n)
    (hh : heard e = true) : (R.notifies n).holdings ≠ 0 := by
  have hpolled {m : NotifyId} (h : R.hear w m = some T) : (R.notifies m).holdings ≠ 0 := by
    obtain ⟨N,x,hN,-⟩ := hear_some h
    rw [(Notify.poll_ready hN).1]
    exact Multiset.cons_ne_zero
  obtain ⟨op,x⟩ := e
  cases op with
  | select v m d =>
    cases hw
    obtain ⟨now,x⟩ := x
    change (if now = R.clock then R.select w n d x else none) = some T at h
    split_ifs at h
    cases x with
    | notified => exact hpolled h
    | _ => cases hh
  | recheck m =>
    cases hw
    obtain ⟨now,x⟩ := x
    change (if now = R.clock then R.recheck w n x else none) = some T at h
    split_ifs at h
    cases x with
    | notified => exact hpolled h
    | _ => cases hh
  | _ => cases hw

theorem touch_elapsed {v : Handle} {d now : Instant} :
    R.touch w ⟨.select v n d,(now,.elapsed)⟩ = some T ↔
      now = R.clock ∧ d ≤ R.clock ∧ T = R.abandon w n := by
  change (if now = R.clock then (if d ≤ R.clock then some (R.abandon w n) else none) else none) =
    some T ↔ _
  split_ifs with hnow hd
  · simp [hnow,hd,eq_comm]
  · simp [hd]
  · simp [hnow]

end Touching

section Stepping

variable [Platform] {R R' : Bench} {i : ℕ} {l l' : Lane}

inductive Moves (R R' : Bench) (i : ℕ) (l : Lane) : Lane → Prop
  | still : Moves R R' i l l
  | act {e : Ev} {q : Routine} {T : Bench} (hs : Prog.Step l.code e q)
      (he : ∀ sh cx, e.op ≠ .waitPoll sh cx) (ht : R.touch (.lane i) e = some T)
      (hlog : R'.log = R.log ++ [(.lane i,e)]) : Moves R R' i l (l.advance e q)
  | ready {s : Berth} {sh : Handle} {cx : ℕ} {k : Reply (.waitPoll sh cx) → Routine} {p p' : Code}
      {e : Ev} {T : Bench} {r : Except Stop Unit} {v : Except VclError Unit}
      (hs : l.chore.slot = some s) (hk : l.code.Head (.waitPoll sh cx) k) (hp : R.slots s = some p)
      (hp' : Prog.Step p e p') (hr : p'.Returns r) (hv : resolved r = some v)
      (ht : R.touch (.slot s) e = some T) (hlog : R'.log = R.log ++ [(.slot s,e)]) :
      Moves R R' i l (l.advance ⟨.waitPoll sh cx,.ready v⟩ (k (.ready v)))
  | pending {sh : Handle} {cx : ℕ} {k : Reply (.waitPoll sh cx) → Routine}
      (hk : l.code.Head (.waitPoll sh cx) k) (hlog : R'.log = R.log) :
      Moves R R' i l (l.advance ⟨.waitPoll sh cx,.pending⟩ (k .pending))

omit [Platform] in
theorem moves_set {j : ℕ} {x y : Lane} (hx : R.lanes[j]? = some x)
    (hset : R'.lanes = R.lanes.set j y) (hm : Moves R R' j x y) (hl : R'.lanes[i]? = some l') :
    ∃ l, R.lanes[i]? = some l ∧ Moves R R' i l l' := by
  rw [hset] at hl
  by_cases hj : j = i
  · subst hj
    have hlt := (List.getElem?_eq_some_iff.mp hx).1
    rw [List.getElem?_set_self hlt] at hl
    cases hl
    exact ⟨x,hx,hm⟩
  · rw [List.getElem?_set_ne hj] at hl
    exact ⟨l',hl,.still⟩

theorem step_lane (h : Step R R') (hl : R'.lanes[i]? = some l') :
    (∃ l, R.lanes[i]? = some l ∧ Moves R R' i l l') ∨
      R.lanes[i]? = none ∧ ∃ d b, l' = ⟨d,[],Chore.code b d⟩ := by
  have hkeep (hs : R'.lanes = R.lanes) : ∃ l, R.lanes[i]? = some l ∧ Moves R R' i l l' := by
    rw [hs] at hl
    exact ⟨l',hl,.still⟩
  cases h with
  | spawn d =>
    change (R.lanes ++ [_])[i]? = some l' at hl
    by_cases hi : i < R.lanes.length
    · rw [List.getElem?_append_left hi] at hl
      exact .inl ⟨l',hl,.still⟩
    · rw [List.getElem?_append_right (not_lt.mp hi),List.getElem?_singleton] at hl
      split_ifs at hl
      cases hl
      exact .inr ⟨List.getElem?_eq_none (not_lt.mp hi),d,_,rfl⟩
  | elapse t => exact .inl (hkeep rfl)
  | act hx hs he ht =>
    obtain ⟨W,m,N,S,hS⟩ := touch_store_frame ht (Lane.arms _ _)
    rw [hS] at hl ⊢
    exact .inl (moves_set hx rfl (.act hs he ht rfl) hl)
  | pend => exact .inl (hkeep rfl)
  | inner hx hs hk hp hp' hgo ht =>
    obtain ⟨W,m,N,rfl⟩ := touches_frame (touch_touches ht)
    exact .inl (hkeep rfl)
  | ready hx hs hk hp hp' hr hv ht =>
    have hm := ht
    obtain ⟨W,m,N,rfl⟩ := touches_frame (touch_touches ht)
    exact .inl (moves_set hx rfl (.ready hs hk hp hp' hr hv hm rfl) hl)
  | pending hx hs hk hp hw hN => exact .inl (moves_set hx rfl (.pending hk rfl) hl)
  | discard => exact .inl (hkeep rfl)

omit [Platform] in
theorem moves_called (h : Moves R R' i l l') : l' = l ∨ ∃ e q, Prog.Step l.code e q ∧
    l' = l.advance e q ∧ ((∃ sh cx, e.op = .waitPoll sh cx) ∨
      R'.log = R.log ++ [(.lane i,e)] ∧ ∃ T, R.touch (.lane i) e = some T) := by
  cases h with
  | still => exact .inl rfl
  | act hs he ht hlog => exact .inr ⟨_,_,hs,rfl,.inr ⟨hlog,_,ht⟩⟩
  | ready hs hk => exact .inr ⟨_,_,Prog.head_step hk _,rfl,.inl ⟨_,_,rfl⟩⟩
  | pending hk => exact .inr ⟨_,_,Prog.head_step hk _,rfl,.inl ⟨_,_,rfl⟩⟩

omit [Platform] in
theorem arms_wait {e : Ev} {s : Berth} {p : Code} (h : l.arms e = some (s,p)) :
    l.chore.slot = some s ∧ ∃ n d, l.past.getLast?.bind granted = some n ∧
      p = (s.2.reactor.waitLoop n d).prog := by
  obtain ⟨op,x⟩ := e
  cases op with
  | instantNow =>
    obtain ⟨s',hs',hs⟩ := Option.bind_eq_some_iff.mp h
    obtain ⟨n,hn,hp⟩ := Option.map_eq_some_iff.mp hs
    cases hp
    exact ⟨hs',n,_,hn,rfl⟩
  | _ => cases h

theorem step_slot {s : Berth} {p : Code} (h : Step R R') (hp : R'.slots s = some p) :
    (∃ p₀, R.slots s = some p₀ ∧ (p = p₀ ∨ ∃ e, Prog.Step p₀ e p)) ∨
      ∃ (i : ℕ) (l : Lane) (e : Ev), R.lanes[i]? = some l ∧ l.arms e = some (s,p) := by
  have hkeep (hs : R'.slots = R.slots) : ∃ p₀, R.slots s = some p₀ ∧ (p = p₀ ∨ ∃ e, Prog.Step p₀ e p) := by
    rw [hs] at hp
    exact ⟨p,hp,.inl rfl⟩
  have hfill {s' : Berth} {x : Option Code} (hs : R'.slots = Function.update R.slots s' x)
      (hx : s = s' → x = some p → ∃ p₀, R.slots s = some p₀ ∧ (p = p₀ ∨ ∃ e, Prog.Step p₀ e p)) :
      ∃ p₀, R.slots s = some p₀ ∧ (p = p₀ ∨ ∃ e, Prog.Step p₀ e p) := by
    rw [hs] at hp
    by_cases hs' : s = s'
    · subst hs'
      rw [Function.update_self] at hp
      exact hx rfl hp
    · rw [Function.update_of_ne hs'] at hp
      exact ⟨p,hp,.inl rfl⟩
  cases h with
  | spawn => exact .inl (hkeep rfl)
  | elapse => exact .inl (hkeep rfl)
  | act hx hs he ht =>
    obtain ⟨W,m,N,rfl⟩ := touches_frame (touch_touches ht)
    rename_i l e q
    cases ha : l.arms e with
    | none =>
      rw [ha] at hp
      exact .inl ⟨p,hp,.inl rfl⟩
    | some x =>
      obtain ⟨s',p'⟩ := x
      rw [ha] at hp
      change Function.update R.slots s' (some p') s = some p at hp
      by_cases hs' : s = s'
      · subst hs'
        rw [Function.update_self] at hp
        cases hp
        exact .inr ⟨_,l,e,hx,ha⟩
      · rw [Function.update_of_ne hs'] at hp
        exact .inl ⟨p,hp,.inl rfl⟩
  | pend => exact .inl (hkeep rfl)
  | inner hx hs hk hp₀ hp' hgo ht =>
    obtain ⟨W,m,N,rfl⟩ := touches_frame (touch_touches ht)
    refine .inl (hfill rfl ?_)
    rintro rfl ⟨⟩
    exact ⟨_,hp₀,.inr ⟨_,hp'⟩⟩
  | ready hx hs hk hp₀ hp' hr hv ht =>
    obtain ⟨W,m,N,rfl⟩ := touches_frame (touch_touches ht)
    exact .inl (hfill rfl nofun)
  | pending => exact .inl (hkeep rfl)
  | discard => exact .inl (hfill rfl nofun)

theorem step_log (h : Step R R') : R.log <+: R'.log := by
  cases h with
  | act hx hs he ht =>
    obtain ⟨W,m,N,S,hS⟩ := touch_store_frame ht (Lane.arms _ _)
    rw [hS]
    exact List.prefix_append _ _
  | inner hx hs hk hp hp' hgo ht =>
    obtain ⟨W,m,N,rfl⟩ := touches_frame (touch_touches ht)
    exact List.prefix_append _ _
  | ready hx hs hk hp hp' hr hv ht =>
    obtain ⟨W,m,N,rfl⟩ := touches_frame (touch_touches ht)
    exact List.prefix_append _ _
  | _ => exact List.prefix_refl _

theorem step_empty {n : NotifyId} (h : Step R R') (hz : (R.notifies n).holdings = 0) :
    (R'.notifies n).holdings = 0 ∨
      ∃ w e, R'.log = R.log ++ [(w,e)] ∧ n ∈ R.posts e.op := by
  have hpolled {w : Party} {m : NotifyId} {N : Notify Party Unit}
      (hN : (R.notifies m).poll w = (none,N)) : ((R.settle m N).notifies n).holdings = 0 := by
    apply settle_empty hz
    intro hm
    rw [(Notify.poll_pending hN).1,hm]
  have htouch {w : Party} {e : Ev} {T : Bench} (ht : R.touch w e = some T)
      (hlog : R'.log = R.log ++ [(w,e)]) (hn : R'.notifies = T.notifies) :
      (R'.notifies n).holdings = 0 ∨ ∃ w e, R'.log = R.log ++ [(w,e)] ∧ n ∈ R.posts e.op := by
    by_cases hp : n ∈ R.posts e.op
    · exact .inr ⟨w,e,hlog,hp⟩
    · rw [hn]
      exact .inl (touches_empty (touch_touches ht) hp hz)
  cases h with
  | spawn => exact .inl hz
  | elapse => exact .inl hz
  | act hx hs he ht =>
    have hm := ht
    obtain ⟨W,m,N,rfl⟩ := touches_frame (touch_touches ht)
    obtain ⟨S,hS⟩ := store_frame { R with waiters := W, made := m, notifies := N } (Lane.arms _ _)
    rw [hS] at htouch ⊢
    exact htouch hm rfl rfl
  | pend hx hw hN => exact .inl (hpolled hN)
  | inner hx hs hk hp hp' hgo ht =>
    have hm := ht
    obtain ⟨W,m,N,rfl⟩ := touches_frame (touch_touches ht)
    exact htouch hm rfl rfl
  | ready hx hs hk hp hp' hr hv ht =>
    have hm := ht
    obtain ⟨W,m,N,rfl⟩ := touches_frame (touch_touches ht)
    exact htouch hm rfl rfl
  | pending hx hs hk hp hw hN => exact .inl (hpolled hN)
  | discard hp hw => exact .inl (settle_empty hz (Notify.abandon_empty _))

theorem lanes_invariant {I : Lane → Prop} (hspawn : ∀ d b, I ⟨d,[],Chore.code b d⟩)
    (hstep : ∀ l e q, I l → Prog.Step l.code e q → I (l.advance e q)) (h : Later idle R)
    (hl : R.lanes[i]? = some l) : I l := by
  induction h generalizing i l with
  | refl => cases hl
  | tail _ hs ih =>
    rcases step_lane hs hl with ⟨l₀,hl₀,hm⟩ | ⟨-,d,b,rfl⟩
    · rcases moves_called hm with rfl | ⟨e,q,hq,rfl,-⟩
      · exact ih hl₀
      · exact hstep l₀ e q (ih hl₀) hq
    · exact hspawn d b

theorem past_logged {e : Ev} (h : Later idle R) (hl : R.lanes[i]? = some l) (he : e ∈ l.past)
    (hop : ∀ sh cx, e.op ≠ .waitPoll sh cx) : (.lane i,e) ∈ R.log := by
  induction h generalizing i l with
  | refl => cases hl
  | tail _ hs ih =>
    have hgrow := (step_log hs).subset
    rcases step_lane hs hl with ⟨l₀,hl₀,hm⟩ | ⟨-,d,b,rfl⟩
    · rcases moves_called hm with rfl | ⟨e',q,-,rfl,hcall⟩
      · exact hgrow (ih hl₀ he)
      · rcases List.mem_append.mp he with hpast | hlast
        · exact hgrow (ih hl₀ hpast)
        · rw [List.mem_singleton.mp hlast] at hop ⊢
          rcases hcall with ⟨sh,cx,hpoll⟩ | ⟨hlog,-⟩
          · exact absurd hpoll (hop sh cx)
          · rw [hlog]
            exact List.mem_append_right _ (List.mem_singleton_self _)
    · cases he

theorem trail_later {run : List Bench} (h : Trail run) (hR : R ∈ idle :: run) : Later idle R := by
  rcases List.mem_cons.mp hR with rfl | hmem
  · exact .refl
  · have hlater : (idle :: run).IsChain Later := h.imp (fun _ _ hstep => .single hstep)
    exact hlater.rel_cons hmem

end Stepping

end Bench

end VclRs
