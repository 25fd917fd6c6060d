import VclRs.Footprint
import VclRs.Wakeups.Runtime

namespace VclRs

open Interaction

structure Courteous (n : NotifyId) (e : Ev) (q : Code) : Prop where
  own : ∀ m, awaited e.op = some m → m = n
  done : heard e = true → q = .ret (.ok ())

section Programs

variable {r : VclReactor} {n : NotifyId}

theorem unheard {e : Ev} (h : awaited e.op = none) : heard e = false := by
  obtain ⟨op,a⟩ := e
  cases op <;> first
    | rfl
    | cases h

theorem awaited_reply {o : Call} (h : awaited o = some n) : Nonempty (Reply o) := by
  cases o <;> first
    | exact ⟨(0,.dropped)⟩
    | cases h

theorem deaf_courteous {e : Ev} {q : Code} (hown : ∀ m, awaited e.op = some m → m = n)
    (h : heard e = false) : Courteous n e q := by
  refine ⟨hown,fun hh => ?_⟩
  rw [h] at hh
  cases hh

theorem silent_courteous (e : Ev) (q : Code) (h : awaited e.op = none) : Courteous n e q := by
  refine deaf_courteous ?_ (unheard h)
  intro m hm
  rw [h] at hm
  cases hm

theorem tick_silent : r.tick.Calls (fun o => awaited o = none) :=
  tick_calls rfl (fun _ => rfl) rfl

theorem waitLoop_upholds {deadline : Instant} :
    (r.waitLoop n deadline).prog.Upholds (Courteous n) := by
  refine Prog.upholds_loop (fun _ => True) ?_ trivial
  intro _ f _ hagain hdone
  have hend (res : Except Stop Unit) : (f (.inr res)).Upholds (Courteous n) := by
    rw [hdone res]
    trivial
  rintro ⟨t,sel⟩
  have hown : ∀ m, awaited (.select r.vep n deadline) = some m → m = n := by
    intro m hm
    cases hm
    rfl
  cases sel with
  | notified => exact ⟨⟨hown,fun _ => hdone (.ok ())⟩,hend (.ok ())⟩
  | elapsed => exact ⟨deaf_courteous hown rfl,hend (.error (.err .timeout))⟩
  | dropped => exact ⟨deaf_courteous hown rfl,hend (.error .dropped)⟩
  | readFailed e => exact ⟨deaf_courteous hown rfl,hend (.error (.err (.io e)))⟩
  | readable =>
    refine ⟨deaf_courteous hown rfl,?_⟩
    change (((r.drainEvents.prog.bind _).bind _).bind f).Upholds (Courteous n)
    rw [Prog.bind_assoc,Prog.bind_assoc]
    have hdrain : r.drainEvents.Calls (fun o => awaited o = none) :=
      drainEvents_calls rfl (fun _ => rfl)
    apply Prog.upholds_bind silent_courteous hdrain
    intro res
    cases res with
    | error e => exact hend (.error e)
    | ok _ =>
      intro _
      refine ⟨silent_courteous _ _ rfl,?_⟩
      rintro ⟨t',again⟩
      have hown' : ∀ m, awaited (.recheck n) = some m → m = n := by
        intro m hm
        cases hm
        rfl
      cases again with
      | notified => exact ⟨⟨hown',fun _ => hdone (.ok ())⟩,hend (.ok ())⟩
      | elapsed => exact ⟨deaf_courteous hown' rfl,hagain () trivial⟩
      | dropped => exact ⟨deaf_courteous hown' rfl,hend (.error .dropped)⟩

def waitOn (r : VclReactor) (timeout : Duration) (n : NotifyId) : Code :=
  (do
    let now ← instantNow
    r.waitLoop n (now + timeout) : Vcl Unit).prog

theorem wait_code {sh : Handle} {eventMask : UInt32} {timeout : Duration} :
    (Errand.wait sh eventMask timeout).code r =
      .call (.waitersEntry r.vep sh) (waitOn r timeout) := rfl

theorem waitOn_upholds {timeout : Duration} : (waitOn r timeout n).Upholds (Courteous n) := by
  intro now
  exact ⟨silent_courteous _ _ rfl,waitLoop_upholds⟩

end Programs

inductive Proper (r : VclReactor) (entries : NotifyId → Bool) : Future → Prop
  | fresh (e : Errand) : Proper r entries ⟨e,.running (e.code r)⟩
  | ticking {p : Code} (hp : p.Calls (fun o => awaited o = none)) :
      Proper r entries ⟨.tick,.running p⟩
  | waiting {sh : Handle} {m : UInt32} {t : Duration} {p : Code} (he : entries sh.toNat = true)
      (hp : p.Upholds (Courteous sh.toNat)) : Proper r entries ⟨.wait sh m t,.running p⟩
  | parked {sh : Handle} {m : UInt32} {t : Duration} {o : Call} {k : Reply o → Code}
      (he : entries sh.toNat = true) (ho : awaited o = some sh.toNat)
      (hk : ∀ a, Courteous sh.toNat ⟨o,a⟩ (k a) ∧ (k a).Upholds (Courteous sh.toNat)) :
      Proper r entries ⟨.wait sh m t,.awaiting o k⟩

section Proper

variable {r : VclReactor} {entries entries' : NotifyId → Bool} {f : Future} {e : Errand}
variable {p : Code} {o : Call} {k : Reply o → Code} {n : NotifyId}

theorem proper_mono (hsub : ∀ n, entries n = true → entries' n = true) (h : Proper r entries f) :
    Proper r entries' f := by
  cases h with
  | fresh e => exact .fresh e
  | ticking hp => exact .ticking hp
  | waiting he hp => exact .waiting (hsub _ he) hp
  | parked he ho hk => exact .parked (hsub _ he) ho hk

theorem proper_call {R : Runtime} {a : Reply o} (h : Proper r R.entries ⟨e,.running p⟩)
    (hp : p.Head o k) (ho : awaited o = none) (ha : Faithful ⟨o,a⟩)
    (hsub : ∀ n, R.entries n = true → (R.perform o).entries n = true) :
    Proper r (R.perform o).entries ⟨e,.running (k a)⟩ := by
  cases h with
  | fresh e =>
    cases e with
    | tick => exact .ticking ((Prog.calls_head tick_silent hp).2 a)
    | wait sh m t =>
      rw [wait_code] at hp
      cases hp
      obtain rfl : a = sh.toNat := ha
      exact .waiting (Function.update_self _ _ _) waitOn_upholds
  | ticking hcalls => exact .ticking ((Prog.calls_head hcalls hp).2 a)
  | waiting he hup => exact .waiting (hsub _ he) (Prog.upholds_head hup hp a).2

theorem proper_arrive (h : Proper r entries ⟨e,.running p⟩) (hp : p.Head o k)
    (ho : awaited o = some n) : Proper r entries ⟨e,.awaiting o k⟩ := by
  have hcalls (hc : p.Calls (fun o => awaited o = none)) : False := by
    have hnone := (Prog.calls_head hc hp).1
    rw [ho] at hnone
    cases hnone
  cases h with
  | fresh e =>
    cases e with
    | tick => exact (hcalls tick_silent).elim
    | wait sh m t =>
      rw [wait_code] at hp
      cases hp
      cases ho
  | ticking hc => exact (hcalls hc).elim
  | waiting he hup =>
    have hk := Prog.upholds_head hup hp
    obtain ⟨a⟩ := awaited_reply ho
    have hn := (hk a).1.own n ho
    exact .parked he (hn ▸ ho) hk

theorem proper_resume (h : Proper r entries ⟨e,.awaiting o k⟩) (a : Reply o) :
    Proper r entries ⟨e,.running (k a)⟩ := by
  cases h with
  | parked he ho hk => exact .waiting he (hk a).2

theorem proper_awaiting (h : Proper r entries ⟨e,.awaiting o k⟩) (ho : awaited o = some n) :
    ∃ sh m t, e = .wait sh m t ∧ n = sh.toNat ∧ entries n = true ∧
      ∀ a, heard ⟨o,a⟩ = true → k a = .ret (.ok ()) := by
  cases h with
  | @parked sh m t _ _ he ho' hk =>
    rw [ho',Option.some.injEq] at ho
    subst ho
    exact ⟨sh,m,t,rfl,rfl,he,fun a => (hk a).1.done⟩

end Proper

end VclRs
