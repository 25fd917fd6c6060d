import VclRs.Budget
import VclRs.Schedule

namespace VclRs

open Interaction Fallible

section Calls

variable {due : Instant} {sourced : Bool} {s : Meter} {α : Type}
variable {Q : α → Meter → Prop} {E : Stop → Meter → Prop}

def Meter.attempted (s : Meter) : Meter := { s with attempts := s.attempts + 1 }

theorem registerWorkerThread_budget {Q : Unit → Meter → Prop} (hQ : Q () s.attempted)
    (hE : ∀ e, E e s.attempted) : (budget due sourced).wpe registerWorkerThread Q E s := by
  simp only [registerWorkerThread,Contract.wpe_bind,Contract.wpe_call]
  intro registered _
  refine ⟨trivial,?_⟩
  have hcalls := registration_calls (P := Unmetered) trivial trivial trivial trivial trivial trivial
    registered
  exact unmetered_wpe hcalls (fun _ => hQ) hE

theorem punctual_configures {sh : Handle} {e : Ev} (hl : s.late = false) (h : Configures sh e.op) :
    (budget due sourced).next s e = s := by
  obtain ⟨op,reply⟩ := e
  cases h with
  | connect ep =>
    obtain ⟨clock,late,breach,forfeits,wrote,attempts⟩ := s
    obtain rfl : late = false := hl
    exact congrArg (fun b => (⟨clock,false,b,forfeits,wrote,attempts⟩ : Meter)) (Bool.or_false breach)
  | bind ep => rfl
  | listen n => rfl
  | attr op h => rfl
  | shutdown how => rfl

theorem dial_budget [Platform] {sh : Handle} {addr : SocketAddr} {source : Option SocketAddr}
    {r : VclReactor} {Q : Unit → Meter → Prop} (hl : s.late = false) (hQ : ∀ a, Q a s)
    (hE : ∀ e, E e s) : (budget due sourced).wpe (VclStream.dial sh addr source r) Q E s := by
  have hcalls : (VclStream.dial sh addr source r).Calls (fun c => Configures sh c ∨ Unmetered c) :=
    dial_calls (fun _ => .inl) (.inr trivial)
  refine (budget due sourced).wpe_still ?_ hcalls hQ hE
  rintro e (he | he)
  · exact ⟨trivial,punctual_configures hl he⟩
  · exact ⟨trivial,unmetered_next he⟩

theorem dropSession_budget {sh : Handle} {Q : Unit → Meter → Prop} (hQ : Q () s) :
    (budget due sourced).wpe (dropSession sh) Q E s := by
  rw [dropSession,Contract.wpe_bind]
  exact unmetered_call (by trivial) (fun _ => hQ)

theorem drop_budget {stream : VclStream} {Q : Unit → Meter → Prop} (hQ : Q () s) :
    (budget due sourced).wpe stream.drop Q E s := by
  rw [VclStream.drop,VclReactor.deregister]
  simp only [Contract.wpe_bind,Contract.wpe_pure]
  apply unmetered_call (by trivial)
  intro _
  apply unmetered_call (by trivial)
  intro _
  exact dropSession_budget hQ

theorem owning_budget {sh : Handle} {body : Vcl α} (h : (budget due sourced).wpe body Q E s) :
    (budget due sourced).wpe (owning sh body) Q E s := by
  rw [owning,Contract.wpe_onFail]
  apply (budget due sourced).wpe_mono h (fun _ _ hq => hq)
  intro e s' he
  exact dropSession_budget he

theorem genPorts_budget {n : ℕ} {Q : List ℕ → Meter → Prop}
    (hQ : ∀ ports : List ℕ, ports.length = n → Q ports s) :
    (budget due sourced).wpe (genPorts n) Q E s := by
  induction n generalizing Q with
  | zero => exact hQ [] rfl
  | succ n ih =>
    rw [genPorts,Contract.wpe_bind]
    apply unmetered_call (by trivial)
    intro port
    rw [Contract.wpe_bind]
    apply ih
    intro ports hp
    exact hQ (port :: ports) (by rw [List.length_cons,hp])

end Calls

section Connecting

variable [Platform] {due : Instant} {sourced : Bool} {s : Meter} {a : ℕ}

theorem connectAsync_budget {addr : SocketAddr} {source : Option SocketAddr} {r : VclReactor}
    {timeout : Duration} (hs : Early s) (ha : At a false s) :
    (budget due sourced).wpe (VclStream.connectAsync addr source r timeout)
      (fun _ => Going)
      (fun e s' => Outcome due (sourced && decide (a + 1 < 8)) e s' ∧ At (a + 1) false s') s := by
  have hs' : Early s.attempted := hs
  have ha' : At (a + 1) false s.attempted := ⟨congrArg (· + 1) ha.1,ha.2⟩
  have hstop (e : Stop) : Outcome due (sourced && decide (a + 1 < 8)) e s.attempted ∧
      At (a + 1) false s.attempted := ⟨.inl (.inl hs'),ha'⟩
  rw [VclStream.connectAsync_eq,Contract.wpe_bind]
  apply registerWorkerThread_budget _ hstop
  rw [Contract.wpe_bind]
  apply unmetered_wpe (createTcp_calls trivial) _ hstop
  intro sh
  apply owning_budget
  rw [Contract.wpe_bind]
  apply dial_budget hs'.1 _ hstop
  intro _
  rw [Contract.wpe_bind]
  apply (budget due sourced).wpe_mono (waitEvent_budget (.inl hs') ha')
  · intro _ s₁ hs₁
    exact hs₁.1
  · intro e s₁ hs₁
    simpa using hs₁

def Retrying (due : Instant) (ports : List ℕ) (lastErr : Option VclError) (s : Meter) : Prop :=
  Afloat s ∨ (Spent due s ∧ (ports ≠ [] ∨ lastErr = some .timeout)) ∨
    Forfeited s ∧ ports = [] ∧ ∃ x, lastErr = some (.io x)

omit [Platform] in
theorem outcome_retrying {ports : List ℕ} {e : VclError} (hp : a + ports.length = 8)
    (h : Outcome due (true && decide (a < 8)) (.err e) s) : Retrying due ports (some e) s := by
  rcases h with h | ⟨h,he⟩ | ⟨h,ht,x,hx⟩
  · exact .inl h
  · rcases he with he | he | ⟨ht,-⟩
    · cases he
      exact .inr (.inl ⟨h,.inr rfl⟩)
    · cases he
    · refine .inr (.inl ⟨h,.inl ?_⟩)
      rintro rfl
      simp at ht hp
      omega
  · cases hx
    refine .inr (.inr ⟨h,?_,x,rfl⟩)
    simp at ht
    exact List.eq_nil_of_length_eq_zero (by omega)

omit [Platform] in
theorem remaining_zero {started timeout now : ℕ} (h : started + timeout < now) :
    timeout - (now - started) = 0 := by
  omega

theorem connectPorts_budget {peer : SocketAddr} {ip : IpAddr} {r : VclReactor} {timeout : Duration}
    {started : Instant} {ports : List ℕ} {lastErr : Option VclError}
    (hp : a + ports.length = 8) (hs : Retrying (started + timeout) ports lastErr s)
    (ha : At a false s) :
    (budget (started + timeout) true).wpe (connectPorts peer ip r timeout started ports lastErr)
      (fun _ => Going) (Settles (started + timeout)) s := by
  induction ports generalizing a lastErr s with
  | nil =>
    rcases hs with hs | ⟨hs,hne | rfl⟩ | ⟨hs,-,x,rfl⟩
    · exact .inl hs
    · exact absurd rfl hne
    · exact .inr (.inl ⟨hs,.inl rfl⟩)
    · exact .inr (.inr ⟨hs,by simp,by simp⟩)
  | cons port ports ih =>
    rcases hs with (hs | hs) | ⟨hs,-⟩ | ⟨-,hnil,-⟩
    · simp only [connectPorts,Contract.wpe_bind,Contract.wpe_call,Contract.wpe_ite,wpe_attempt,
        wpe_err]
      intro now _
      refine ⟨trivial,?_⟩
      have hs₁ : Early ((budget (started + timeout) true).next s ⟨.instantNow,now⟩) := hs
      have ha₁ : At a false ((budget (started + timeout) true).next s ⟨.instantNow,now⟩) := ha
      split_ifs with hrem
      · exact .inl (.inl hs₁)
      · apply (budget (started + timeout) true).wpe_mono (connectAsync_budget hs₁ ha₁)
        · intro _ s' hs'
          exact hs'
        · rintro e s' ⟨he,ha'⟩
          have hp' : a + 1 + ports.length = 8 := by
            rw [List.length_cons] at hp
            omega
          cases e with
          | err e => exact ih hp' (outcome_retrying hp' he) ha'
          | dropped =>
            rcases he with he | ⟨he,-⟩ | ⟨-,-,x,hx⟩
            · exact .inl he
            · exact .inr (.inl ⟨he,.inr rfl⟩)
            · cases hx
    · exact breached_wpe hs (fun _ _ h => .inr (.inr h)) (fun _ _ h => .inl (.inr h))
    · simp only [connectPorts,Contract.wpe_bind,Contract.wpe_call,Contract.wpe_ite,wpe_err]
      intro now hrely
      have hlate : started + timeout < now := lt_of_lt_of_le hs.2.2.2 (hrely now rfl)
      refine ⟨trivial,?_⟩
      rw [if_pos (remaining_zero hlate)]
      exact .inr (.inl ⟨⟨hs.1,hs.2.1,hs.2.2.1,hlate⟩,.inl rfl⟩)
    · cases hnil

theorem connectSource_budget {peer : SocketAddr} {source : Option IpAddr} {r : VclReactor}
    {timeout : Duration} {started : Instant} (hs : Early s) (ha : At 0 false s) :
    (budget (started + timeout) source.isSome).wpe (connectSource peer source r timeout started)
      (fun _ => Going) (Settles (started + timeout)) s := by
  cases source with
  | none =>
    apply (budget (started + timeout) false).wpe_mono (connectAsync_budget hs ha) (fun _ _ h => h)
    rintro e s' ⟨he,-⟩
    exact outcome_settles he
  | some ip =>
    simp only [connectSource,Contract.wpe_ite,Contract.wpe_bind,wpe_err]
    split_ifs with hfam
    · exact .inl (.inl hs)
    · apply genPorts_budget
      intro ports hp
      apply connectPorts_budget (a := 0) _ (.inl (.inl hs)) ha
      rw [hp]

end Connecting

section Exchanging

variable [Platform] {due : Instant} {sourced : Bool} {s : Meter} {stream : VclStream}

def Written (s : Meter) : Prop := Afloat s ∧ s.wrote = true

omit [Platform] in
theorem read_next {sh : Handle} {n : ℕ} {reply : Int × List UInt8} (hs : Going s)
    (hw : s.wrote = true) : Written ((budget due sourced).next s ⟨.sessionRead sh n,reply⟩) := by
  refine ⟨?_,hw⟩
  rcases hs with ⟨hl,hb,hf⟩ | hs | hs
  · exact .inl ⟨hl,Bool.or_eq_false_iff.mpr ⟨hb,hl⟩,hf⟩
  · exact .inr (spoilt_next hs rfl (fun hf => hf))
  · exact .inr (breached_next hs _)

omit [Platform] in
theorem write_next {sh : Handle} {buf : List UInt8} {rc : Int} (hs : Going s) :
    Written ((budget due sourced).next s ⟨.sessionWrite sh buf,rc⟩) := by
  refine ⟨?_,rfl⟩
  rcases hs with ⟨hl,hb,hf⟩ | hs | hs
  · exact .inl ⟨hl,Bool.or_eq_false_iff.mpr ⟨hb,hl⟩,hf⟩
  · exact .inr (spoilt_next hs rfl (fun hf => hf))
  · exact .inr (breached_next hs _)

omit [Platform] in
theorem written_wait {r : VclReactor} {sh : Handle} {mask : UInt32} {timeout : Duration}
    {Q : Unit → Meter → Prop} (hs : Written s) (hQ : ∀ s', Going s' → s'.wrote = true → Q () s') :
    (budget due sourced).wpe (r.waitEvent sh mask timeout) Q (Settles due) s := by
  have hat : At s.attempts true s := ⟨rfl,hs.2⟩
  apply (budget due sourced).wpe_mono (waitEvent_budget (afloat_going hs.1) hat)
  · rintro _ s' ⟨hs',-,hw⟩
    exact hQ s' hs' hw
  · rintro e s' ⟨he,-⟩
    rw [Bool.not_true,Bool.and_false] at he
    exact outcome_settles he

theorem sessionRead_budget {sh : Handle} {buf : List UInt8} {E : Stop → Meter → Prop}
    {Q : Except VclError (ℕ × List UInt8) → Meter → Prop} (hs : Going s) (hw : s.wrote = true)
    (hQ : ∀ x s', Written s' → Q x s') :
    (budget due sourced).wpe (attempt (sessionRead sh buf)) Q E s := by
  simp only [sessionRead,checkRc,Contract.wpe_bind,wpe_attempt,Contract.wpe_call,wpe_rejectIf,
    Contract.wpe_pure]
  intro reply _
  refine ⟨trivial,?_⟩
  split_ifs with hneg <;> exact hQ _ _ (read_next hs hw)

theorem sessionWrite_budget {sh : Handle} {buf : List UInt8} {E : Stop → Meter → Prop}
    {Q : Except VclError ℕ → Meter → Prop} (hs : Going s) (hQ : ∀ x s', Written s' → Q x s') :
    (budget due sourced).wpe (attempt (sessionWrite sh buf)) Q E s := by
  simp only [sessionWrite,checkRc,Contract.wpe_bind,wpe_attempt,Contract.wpe_call,wpe_rejectIf,
    Contract.wpe_pure]
  intro rc _
  refine ⟨trivial,?_⟩
  split_ifs with hneg <;> exact hQ _ _ (write_next hs)

theorem read_budget {buf : List UInt8} (hs : Going s) (hw : s.wrote = true) :
    (budget due sourced).wpe (stream.read buf) (fun _ => Written) (Settles due) s := by
  refine (budget due sourced).wpe_loop (fun _ s' => Going s' ∧ s'.wrote = true) ?_ ⟨hs,hw⟩
  rintro _ s₁ ⟨hs₁,hw₁⟩
  rw [Contract.wpe_bind]
  apply sessionRead_budget hs₁ hw₁
  intro x s₂ hs₂
  cases x with
  | ok x =>
    simp only [Contract.wpe_ite,Contract.wpe_pure,wpe_err]
    split_ifs with hzero
    · exact .inl hs₂.1
    · exact hs₂
  | error e =>
    simp only [Contract.wpe_ite,Contract.wpe_bind,wpe_err]
    split_ifs with htr
    · exact written_wait hs₂ (fun _ hs' hw' => ⟨hs',hw'⟩)
    · exact .inl hs₂.1

theorem readExact_budget {buf : List UInt8} (hs : Written s) :
    (budget due sourced).wpe (stream.readExact buf) (fun _ => Written) (Settles due) s := by
  refine (budget due sourced).wpe_loop (fun _ => Written) ?_ hs
  intro st s₁ hs₁
  simp only [Contract.wpe_ite,Contract.wpe_bind,Contract.wpe_pure]
  split_ifs with hlt
  · exact read_budget (afloat_going hs₁.1) hs₁.2
  · exact hs₁

theorem writeAll_budget {buf : List UInt8} (hb : 0 < buf.length) (hs : Going s) :
    (budget due sourced).wpe (stream.writeAll buf) (fun _ => Written) (Settles due) s := by
  refine (budget due sourced).wpe_loop (fun pos s' => Written s' ∨ Going s' ∧ pos < buf.length) ?_
    (.inr ⟨hs,hb⟩)
  intro pos s₁ hs₁
  simp only [Contract.wpe_ite,Contract.wpe_bind,Contract.wpe_pure]
  split_ifs with hlt
  · have hgoing : Going s₁ := by
      rcases hs₁ with hs₁ | ⟨hs₁,-⟩
      · exact afloat_going hs₁.1
      · exact hs₁
    apply sessionWrite_budget hgoing
    intro x s₂ hs₂
    cases x with
    | ok n => exact .inl hs₂
    | error e =>
      simp only [Contract.wpe_ite,Contract.wpe_bind,wpe_err]
      split_ifs with htr
      · exact written_wait hs₂ (fun _ hs' _ => .inr ⟨hs',hlt⟩)
      · exact .inl hs₂.1
  · rcases hs₁ with hs₁ | ⟨-,hpos⟩
    · exact hs₁
    · exact absurd hpos hlt

theorem exchange_budget {query : List UInt8} (hs : Going s) :
    (budget due sourced).wpe (exchange stream query) (fun _ => Afloat) (Settles due) s := by
  rw [exchange,Contract.wpe_bind,frameTcpDnsQuery]
  split_ifs with hlen
  · change (budget due sourced).wpe (stream.writeAll _ >>= fun _ => _) _ _ _
    rw [Contract.wpe_bind]
    apply (budget due sourced).wpe_mono (writeAll_budget (by simp [toBeBytes]) hs) _ (fun _ _ h => h)
    intro _ s₁ hs₁
    rw [Contract.wpe_bind]
    apply (budget due sourced).wpe_mono (readExact_budget hs₁) _ (fun _ _ h => h)
    intro lenbuf s₂ hs₂
    rw [Contract.wpe_bind]
    cases decodeTcpDnsLen (lenbuf.getD 0 0) (lenbuf.getD 1 0) with
    | error e => exact .inl hs₂.1
    | ok len =>
      apply (budget due sourced).wpe_mono (readExact_budget hs₂) _ (fun _ _ h => h)
      intro _ s₃ hs₃
      exact hs₃.1
  · rcases hs with hs | hs | hs
    · exact .inl (.inl hs)
    · exact .inr (.inr ⟨hs,by simp,by simp⟩)
    · exact .inl (.inr hs)

end Exchanging

section Deadline

variable [Platform] {due : Instant} {s : Meter} {α : Type}

omit [Platform] in
theorem afloat_within {res : Except Stop α} (h : Afloat s) :
    WithinBudget s res ↔ s.forfeits = false := by
  rcases h with ⟨hl,hb,hf⟩ | ⟨hb,hf⟩
  · simp [WithinBudget,hl,hb,hf]
  · simp [WithinBudget,hb,hf]

omit [Platform] in
theorem settles_within {e : Stop} (h : Settles due e s) :
    WithinBudget s (.error e : Except Stop α) ↔ s.forfeits = false := by
  rcases h with h | ⟨⟨-,hb,hf,-⟩,he⟩ | ⟨⟨hl,hb,hf⟩,hne,hnd⟩
  · exact afloat_within h
  · rcases he with rfl | rfl <;> simp [WithinBudget,hb,hf]
  · simp [WithinBudget,hl,hb,hf,hne,hnd]

theorem within_budget_iff (peer : SocketAddr) (source : Option IpAddr) (query : List UInt8)
    (r : VclReactor) (timeout : Duration) (t₀ : Instant) (tr : List Ev)
    (res : Except Stop (List UInt8))
    (hrun : (queryTcpDnsAsync peer source query r timeout).Run (⟨.instantNow,t₀⟩ :: tr) res)
    (hclock : (budget (t₀ + timeout) source.isSome).Relied (.start t₀) tr) :
    WithinBudget ((budget (t₀ + timeout) source.isSome).after (.start t₀) tr) res ↔
      ((budget (t₀ + timeout) source.isSome).after (.start t₀) tr).forfeits = false := by
  have hrest : (budget (t₀ + timeout) source.isSome).wpe (do
      let stream ← connectSource peer source r timeout t₀
      (exchange stream query).ensuring stream.drop) (fun _ => Afloat) (Settles (t₀ + timeout))
      (.start t₀) := by
    rw [Contract.wpe_bind]
    apply (budget (t₀ + timeout) source.isSome).wpe_mono
      (connectSource_budget ⟨rfl,rfl,rfl⟩ ⟨rfl,rfl⟩) _ (fun _ _ h => h)
    intro stream s hs
    rw [Contract.wpe_ensuring]
    apply (budget (t₀ + timeout) source.isSome).wpe_mono (exchange_budget hs)
    · intro _ s' hs'
      exact drop_budget hs'
    · intro e s' hs'
      exact drop_budget hs'
  cases hrun with
  | call _ hrun =>
    cases res with
    | ok response => exact afloat_within (Contract.wpe_ok _ hrest hrun hclock).2
    | error e => exact settles_within (Contract.wpe_error _ hrest hrun hclock).2

end Deadline

instance instDecidableBudget (due : Instant) (sourced : Bool) (s : Meter) (e : Ev) :
    Decidable ((budget due sourced).rely s e) :=
  inferInstanceAs (Decidable (∀ t ∈ timeOf e, s.clock ≤ t))

def resolver : SocketAddr := .new .unspecifiedV4 53

def queried : Vcl (List UInt8) := do
  let stream ← @connectSource host resolver none ⟨9⟩ 5 0
  (@exchange host stream [1]).ensuring stream.drop

theorem queried_run {tr : List Ev} {res : Except Stop (List UInt8)} (h : queried.Run tr res) :
    (@queryTcpDnsAsync host resolver none [1] ⟨9⟩ 5).Run (⟨.instantNow,(0 : ℕ)⟩ :: tr) res := by
  have hnow : Prog.Run instantNow.prog [⟨.instantNow,(0 : ℕ)⟩] (.ok (0 : ℕ)) := .call _ (.ret _)
  exact Prog.run_bind hnow h

def unanswered : (c : Call) → Reply c
  | .select _ _ _ => ((6 : ℕ),.elapsed)
  | c => obliging c

theorem within_budget_unanswered : ∃ tr,
    (@queryTcpDnsAsync host resolver none [1] ⟨9⟩ 5).Run (⟨.instantNow,(0 : ℕ)⟩ :: tr)
      (.error (.err .timeout)) ∧ ((budget 5 false).after (.start 0) tr).late = true ∧
      WithinBudget ((budget 5 false).after (.start 0) tr)
        (.error (.err .timeout) : Except Stop (List UInt8)) := by
  obtain ⟨res,tr,hrun,rfl,hclock,hlate,hforfeits⟩ := Fallible.exec_sat (x := queried)
    (P := fun res tr => res = .error (.err .timeout) ∧ (budget 5 false).Relied (.start 0) tr ∧
      ((budget 5 false).after (.start 0) tr).late = true ∧
      ((budget 5 false).after (.start 0) tr).forfeits = false) (fun _ => unanswered) 10
    (by decide +kernel)
  have hwithin := (@within_budget_iff host resolver none [1] ⟨9⟩ 5 0 tr _ (queried_run hrun)
    hclock).mpr hforfeits
  exact ⟨tr,queried_run hrun,hlate,hwithin⟩

def stalled (n : ℕ) (c : Call) : Reply c :=
  match n, c with
  | 9, .sessionRead _ _ => ((-11 : Int),[])
  | 12, .select _ _ _ => ((100 : ℕ),.notified)
  | _, c => obliging c

theorem stalled_peer_read_late : ∃ tr,
    (@queryTcpDnsAsync host resolver none [1] ⟨9⟩ 5).Run (⟨.instantNow,(0 : ℕ)⟩ :: tr)
      (.error (.err .closed)) ∧ (budget 5 false).Relied (.start 0) tr ∧
      ((budget 5 false).after (.start 0) tr).breach = true ∧
      ¬ WithinBudget ((budget 5 false).after (.start 0) tr)
        (.error (.err .closed) : Except Stop (List UInt8)) := by
  obtain ⟨res,tr,hrun,rfl,hclock,hbreach⟩ := Fallible.exec_sat (x := queried)
    (P := fun res tr => res = .error (.err .closed) ∧ (budget 5 false).Relied (.start 0) tr ∧
      ((budget 5 false).after (.start 0) tr).breach = true) stalled 10 (by decide +kernel)
  refine ⟨tr,queried_run hrun,hclock,hbreach,?_⟩
  intro h
  rw [WithinBudget,hbreach] at h
  cases h.1

end VclRs
