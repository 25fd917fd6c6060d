import VclRs.Interaction.Runs
import VclRs.Schedule

namespace VclRs

open Interaction Fallible

section Reading

theorem digitVal_isDigit {c : Char} (h : c.isDigit = true) : digitVal 10 c = some (c.toNat - 48) := by
  have hc : c.toNat ≤ 57 := by
    simp only [Char.isDigit,Bool.and_eq_true,decide_eq_true_eq] at h
    exact h.2
  have hv : c.toNat - 48 < 10 := by omega
  simp [digitVal,h,hv]

theorem digits_isDigit {cs : List Char} (h : ∀ c ∈ cs, c.isDigit = true) :
    digits 10 cs = (cs.map (fun c => c.toNat - 48),[]) := by
  induction cs with
  | nil => rfl
  | cons c cs ih =>
    have hc := digitVal_isDigit (h c (List.mem_cons_self ..))
    have hcs := ih (fun d hd => h d (List.mem_cons_of_mem c hd))
    simp only [digits,hc,hcs,List.map_cons]

theorem ofDigitChars_digits (cs : List Char) (n : ℕ) :
    Nat.ofDigitChars 10 cs n =
      Nat.ofDigits 10 (cs.map (fun c => c.toNat - 48)).reverse + 10 ^ cs.length * n := by
  induction cs generalizing n with
  | nil => simp
  | cons c cs ih =>
    rw [Nat.ofDigitChars_cons,ih,List.map_cons,Nat.ofDigits_reverse_cons,List.length_map,
      List.length_cons]
    have hzero : '0'.toNat = 48 := rfl
    rw [hzero,pow_succ]
    ring

theorem digits_toDigits (n : ℕ) :
    digits 10 (Nat.toDigits 10 n) = ((Nat.toDigits 10 n).map (fun c => c.toNat - 48),[]) :=
  digits_isDigit (fun _ hc => Nat.isDigit_of_mem_toDigits (by omega) (by omega) hc)

theorem readNumber_toDigits {n bound : ℕ} (h : n ≤ bound) :
    readNumber 10 none true bound (Nat.toDigits 10 n) = some (n,[]) := by
  have hvalue : Nat.ofDigits 10 ((Nat.toDigits 10 n).map (fun c => c.toNat - 48)).reverse = n := by
    have hread := ofDigitChars_digits (Nat.toDigits 10 n) 0
    rw [Nat.ofDigitChars_toDigits (by omega) (by omega)] at hread
    omega
  have hbound : ¬ bound < n := by omega
  simp [readNumber,digits_toDigits,hvalue,hbound]

abbrev addrText (ip : String) (port : ℕ) : String := s!"{ip}:{port}"

theorem text_toList (ip : String) (port : ℕ) :
    (addrText ip port).toList = ip.toList ++ ':' :: Nat.toDigits 10 port := by
  have htext : addrText ip port = ip ++ ":" ++ toString port := rfl
  rw [htext]
  simp

theorem readIpv4Addr_unspecified (cs : List Char) :
    readIpv4Addr ("0.0.0.0".toList ++ ':' :: cs) = some (.replicate 4 0,':' :: cs) := rfl

theorem readPort_toDigits {port : ℕ} (h : port ≤ 65535) :
    readPort (':' :: Nat.toDigits 10 port) = some (.ofNat port,[]) := by
  simp [readPort,readGivenChar,readNumber_toDigits h]

theorem parse_unspecifiedV4 {port : ℕ} (h : port ≤ 65535) :
    SocketAddr.parse (addrText "0.0.0.0" port) = some (.new .unspecifiedV4 (.ofNat port)) := by
  have hread : readSocketAddrV4 ("0.0.0.0".toList ++ ':' :: Nat.toDigits 10 port) =
      some (.v4 (.replicate 4 0) (.ofNat port),[]) := by
    simp only [readSocketAddrV4,readIpv4Addr_unspecified,readPort_toDigits h,Option.bind_eq_bind,
      Option.bind_some]
  rw [SocketAddr.parse,text_toList,hread]
  rfl

theorem parse_unbracketed (port : ℕ) : SocketAddr.parse (addrText "::" port) = none := by
  rw [SocketAddr.parse,text_toList]
  rfl

end Reading

inductive Family where
  | v4
  | v6
deriving DecidableEq, Repr

def Family.wildcard : Family → IpAddr
  | .v4 => .unspecifiedV4
  | .v6 => .v6 (.replicate 16 0)

structure Attempt where
  port : ℕ
  trace : List Ev
  outcome : Except VclError VclDgramSocket

namespace Attempt

def events (x : Attempt) : List Ev := ⟨.genRange portLow portHigh,x.port⟩ :: x.trace

def result (x : Attempt) : Except Stop VclDgramSocket := x.outcome.mapError .err

def Failed (x : Attempt) : Prop := ∃ e, x.outcome = .error e

end Attempt

section Retrying

variable [Platform]

def Family.bindEphemeral : Family → VclReactor → Vcl VclDgramSocket
  | .v4, r => VclDgramSocket.bindEphemeralV4 r
  | .v6, r => VclDgramSocket.bindEphemeralV6 r

structure Attempt.Made (ip : IpAddr) (r : VclReactor) (x : Attempt) : Prop where
  drawn : portLow ≤ x.port ∧ x.port ≤ portHigh
  run : (VclDgramSocket.bind (.new ip (.ofNat x.port)) r).Run x.trace x.result

structure Retries (limit : ℕ) (ip : IpAddr) (r : VclReactor) (xs : List Attempt)
    (res : Except Stop VclDgramSocket) : Prop where
  made : ∀ x ∈ xs, x.Made ip r
  bounded : xs.length ≤ limit
  stops : ∀ x ∈ xs.dropLast, x.Failed
  last : ∃ x, xs.getLast? = some x ∧ res = x.result
  exhausts : (∃ e, res = .error e) ↔ xs.length = limit ∧ ∀ x ∈ xs, x.Failed

def InRange : Ev → Prop
  | ⟨.genRange low high,port⟩ => low ≤ port ∧ port ≤ high
  | _ => True

def Drawn (tr : List Ev) : Prop := ∀ e ∈ tr, InRange e

variable {ip : IpAddr} {r : VclReactor} {x : Attempt} {xs : List Attempt} {n : ℕ}
variable {res : Except Stop VclDgramSocket} {tr : List Ev}

theorem retries_bound {sock : VclDgramSocket} (h : x.Made ip r) (hx : x.outcome = .ok sock) :
    Retries (n + 1) ip r [x] (.ok sock) := by
  constructor
  · simpa using h
  · simp
  · simp
  · exact ⟨x,rfl,by rw [Attempt.result,hx]; rfl⟩
  · simp [Attempt.Failed,hx]

theorem retries_exhausted {e : VclError} (h : x.Made ip r) (hx : x.outcome = .error e) :
    Retries 1 ip r [x] (.error (.err e)) := by
  constructor
  · simpa using h
  · simp
  · simp
  · exact ⟨x,rfl,by rw [Attempt.result,hx]; rfl⟩
  · simp [Attempt.Failed,hx]

theorem retries_cons (h : x.Made ip r) (hx : x.Failed) (hxs : Retries n ip r xs res) :
    Retries (n + 1) ip r (x :: xs) res := by
  obtain ⟨y,hy,hres⟩ := hxs.last
  have hne : xs ≠ [] := by
    rintro rfl
    cases hy
  constructor
  · exact List.forall_mem_cons.mpr ⟨h,hxs.made⟩
  · simpa using hxs.bounded
  · rw [List.dropLast_cons_of_ne_nil hne]
    exact List.forall_mem_cons.mpr ⟨hx,hxs.stops⟩
  · exact ⟨y,by rw [List.getLast?_cons,hy]; rfl,hres⟩
  · rw [hxs.exhausts,List.length_cons,List.forall_mem_cons]
    simp [hx]

theorem retries_single_inv (h : Retries n ip r [x] res) :
    res = x.result ∧ (x.Failed → n = 1) := by
  obtain ⟨y,hy,hres⟩ := h.last
  obtain rfl : x = y := by simpa using hy
  refine ⟨hres,?_⟩
  rintro ⟨e,he⟩
  have herr : ∃ e, res = .error e := ⟨.err e,by rw [hres,Attempt.result,he]; rfl⟩
  exact (h.exhausts.mp herr).1.symm

theorem retries_cons_inv {y : Attempt} (h : Retries n ip r (x :: y :: xs) res) :
    x.Failed ∧ ∃ m, n = m + 1 ∧ Retries m ip r (y :: xs) res := by
  obtain ⟨m,rfl⟩ : ∃ m, n = m + 1 := by
    have hlen := h.bounded
    rw [List.length_cons] at hlen
    exact ⟨n - 1,by omega⟩
  have hstops := List.forall_mem_cons.mp h.stops
  have hmade := List.forall_mem_cons.mp h.made
  refine ⟨hstops.1,m,rfl,?_⟩
  constructor
  · exact hmade.2
  · simpa using h.bounded
  · exact hstops.2
  · obtain ⟨z,hz,hres⟩ := h.last
    rw [List.getLast?_cons_cons] at hz
    exact ⟨z,hz,hres⟩
  · rw [h.exhausts,List.forall_mem_cons,List.length_cons (a := x)]
    simp [hstops.1]

omit [Platform] in
theorem run_attempt {α : Type} {y : Vcl α} {z : Except Stop (Except VclError α)}
    (h : (attempt y).Run tr z) :
    (∃ a, z = .ok a ∧ y.Run tr (a.mapError .err)) ∨ y.Run tr (.error .dropped) := by
  obtain ⟨tr₁,tr₂,a,rfl,hy,ha⟩ := Prog.run_bind_inv h
  match a with
  | .ok a =>
    cases ha
    rw [List.append_nil]
    exact .inl ⟨.ok a,rfl,hy⟩
  | .error (.err e) =>
    cases ha
    rw [List.append_nil]
    exact .inl ⟨.error e,rfl,hy⟩
  | .error .dropped =>
    cases ha
    rw [List.append_nil]
    exact .inr hy

omit [Platform] in
theorem run_attempt_of {α : Type} {y : Vcl α} {a : Except VclError α}
    (h : y.Run tr (a.mapError .err)) : (attempt y).Run tr (.ok a) := by
  cases a with
  | ok a => exact Prog.run_ret h rfl
  | error e => exact Prog.run_ret h rfl

theorem dgramBind_nonempty {addr : SocketAddr} (h : (VclDgramSocket.bind addr r).Run tr res) :
    tr ≠ [] := by
  rintro rfl
  cases h

def unobserved : Contract Call Reply Unit where
  rely _ _ := True
  guar _ _ := True
  next _ _ := ()

abbrev Erring : Stop → Unit → Prop := fun e _ => ∃ v, e = .err v

def Undropped {α : Type} (x : Vcl α) : Prop := unobserved.wpe x (fun _ _ => True) Erring ()

section Undropped

variable {α β : Type} {y : Vcl α}

omit [Platform] in
theorem undropped_call (c : Call) : Undropped (ffi c) := fun _ _ => ⟨trivial,trivial⟩

omit [Platform] in
theorem undropped_bind {f : α → Vcl β} (hy : Undropped y) (hf : ∀ a, Undropped (f a)) :
    Undropped (y >>= f) := by
  rw [Undropped,Contract.wpe_bind]
  exact unobserved.wpe_mono hy (fun a _ _ => hf a) (fun _ _ he => he)

omit [Platform] in
theorem undropped_rejectIf {c : Prop} [Decidable c] (e : VclError) : Undropped (rejectIf c e) := by
  rw [Undropped,wpe_rejectIf]
  split_ifs
  · exact ⟨e,rfl⟩
  · trivial

omit [Platform] in
theorem undropped_ite {c : Prop} [Decidable c] {z : Vcl α} (hy : Undropped y) (hz : Undropped z) :
    Undropped (if c then y else z) := by
  split_ifs
  · exact hy
  · exact hz

omit [Platform] in
theorem undropped_pure (a : α) : Undropped (pure a : Vcl α) := trivial

omit [Platform] in
theorem undropped_err (e : VclError) : Undropped (err e : Vcl α) := ⟨e,rfl⟩

omit [Platform] in
theorem undropped_attempt (hy : Undropped y) : Undropped (attempt y) := by
  rw [Undropped,wpe_attempt]
  apply unobserved.wpe_mono hy (fun _ _ _ => trivial)
  rintro _ _ ⟨v,rfl⟩
  trivial

omit [Platform] in
theorem undropped_owning {sh : Handle} (hy : Undropped y) : Undropped (owning sh y) := by
  rw [Undropped,owning,Contract.wpe_onFail]
  apply unobserved.wpe_mono hy (fun _ _ _ => trivial)
  intro e _ he _ _
  exact ⟨trivial,he⟩

omit [Platform] in
theorem undropped_loop {σ : Type} {body : σ → Vcl (σ ⊕ α)} (h : ∀ s, Undropped (body s)) (s : σ) :
    Undropped (Fallible.loop body s) := by
  refine unobserved.wpe_loop (fun _ _ => True) ?_ trivial
  intro s' _ _
  apply unobserved.wpe_mono (h s') _ (fun _ _ he => he)
  intro y _ _
  cases y <;> trivial

omit [Platform] in
theorem undropped_run (hy : Undropped y) (h : y.Run tr (.error .dropped)) : False := by
  have hrel := unobserved.relied_of_forall (fun _ _ => trivial) () tr
  obtain ⟨v,hv⟩ := (unobserved.wpe_error hy h hrel).2
  cases hv

end Undropped

omit [Platform] in
theorem registerWorkerThread_undropped : Undropped registerWorkerThread := by
  apply undropped_bind (undropped_call _)
  intro registered
  apply undropped_ite (undropped_pure _)
  apply undropped_bind (undropped_call _)
  intro _
  apply undropped_bind (undropped_call _)
  intro _
  apply undropped_bind (undropped_call _)
  intro idx
  apply undropped_bind
  · exact undropped_ite (undropped_call _) (undropped_call _)
  intro _
  exact undropped_call _

theorem bind_undropped {sh : Handle} {addr : SocketAddr} : Undropped (bind sh addr) :=
  undropped_bind (undropped_call _) (fun _ => undropped_rejectIf _)

theorem listen_undropped {sh : Handle} {backlog : ℕ} : Undropped (listen sh backlog) :=
  undropped_bind (undropped_call _) (fun _ => undropped_rejectIf _)

theorem register_undropped {sh : Handle} : Undropped (r.register sh) :=
  undropped_bind (undropped_call _) (fun _ => undropped_rejectIf _)

theorem queryBound_undropped {sh : Handle} {addr : SocketAddr} : Undropped (queryBound sh addr) := by
  apply undropped_bind
  · apply undropped_attempt
    apply undropped_bind (undropped_call _)
    intro y
    apply undropped_bind (undropped_rejectIf _)
    intro _
    exact undropped_pure _
  intro actual
  cases actual with
  | ok actual => exact undropped_pure _
  | error e => exact undropped_err _

theorem verifyBindOrErr_undropped {sh : Handle} {addr : SocketAddr} :
    Undropped (verifyBindOrErr sh addr) := by
  apply undropped_bind (undropped_call _)
  intro vep
  apply undropped_bind (undropped_rejectIf _)
  intro _
  apply undropped_bind
  · apply undropped_bind (undropped_call _)
    intro rv
    apply undropped_ite _ (undropped_pure _)
    apply undropped_bind (undropped_call _)
    intro _
    exact undropped_err _
  intro _
  apply undropped_bind (undropped_call _)
  intro start
  apply undropped_bind
  · apply undropped_loop
    intro _
    apply undropped_bind (undropped_call _)
    intro now
    apply undropped_ite _ (undropped_pure _)
    apply undropped_bind (undropped_call _)
    intro _
    exact undropped_pure _
  intro _
  apply undropped_bind (undropped_call _)
  intro _
  apply undropped_bind (undropped_owning queryBound_undropped)
  intro actual
  exact undropped_rejectIf _

theorem dgramBind_undropped {addr : SocketAddr} : Undropped (VclDgramSocket.bind addr r) := by
  apply undropped_bind registerWorkerThread_undropped
  intro _
  apply undropped_bind
  · apply undropped_bind (undropped_call _)
    intro rc
    apply undropped_bind (undropped_rejectIf _)
    intro _
    exact undropped_pure _
  intro sh
  apply undropped_owning
  apply undropped_bind bind_undropped
  intro _
  apply undropped_bind listen_undropped
  intro _
  apply undropped_bind verifyBindOrErr_undropped
  intro _
  apply undropped_bind register_undropped
  intro _
  exact undropped_pure _

section Attempts

variable {ipStr : String} {lastErr : Option VclError}

omit [Platform] in
theorem drawn_le {port : ℕ} (h : portLow ≤ port ∧ port ≤ portHigh) : port ≤ 65535 := by
  have hhigh := h.2
  rw [portHigh] at hhigh
  omega

def Reads (ipStr : String) (ip : IpAddr) : Prop :=
  ∀ port ≤ 65535, SocketAddr.parse s!"{ipStr}:{port}" = some (.new ip (.ofNat port))

theorem attempts_step (hparse : Reads ipStr ip) (hdrawn : Drawn tr)
    (h : (VclDgramSocket.bindAttempts ipStr r (n + 1) lastErr).Run tr res) :
    ∃ (x : Attempt) (tr' : List Ev), x.Made ip r ∧ tr = x.events ++ tr' ∧
      match x.outcome with
      | .ok sock => tr' = [] ∧ res = .ok sock
      | .error e => (VclDgramSocket.bindAttempts ipStr r n (some e)).Run tr' res := by
  change (genRange portLow portHigh >>= _).Run tr res at h
  obtain ⟨port,tr',rfl,hport⟩ := run_call_bind h
  have hrange : portLow ≤ port ∧ port ≤ portHigh := hdrawn _ (List.mem_cons_self ..)
  rw [hparse port (drawn_le hrange)] at hport
  rcases run_bind_cases hport with ⟨tr₁,tr₂,y,rfl,hy,hrest⟩ | ⟨e,he,-⟩
  · rcases run_attempt hy with ⟨a,⟨⟩,hbind⟩ | hdropped
    · refine ⟨⟨port,tr₁,y⟩,tr₂,⟨hrange,hbind⟩,rfl,?_⟩
      cases y with
      | ok sock =>
        cases hrest
        exact ⟨rfl,rfl⟩
      | error e => exact hrest
    · exact (undropped_run dgramBind_undropped hdropped).elim
  · rcases run_attempt he with ⟨a,⟨⟩,-⟩ | hdropped
    exact (undropped_run dgramBind_undropped hdropped).elim

theorem attempts_run {tr' : List Ev} (hparse : Reads ipStr ip) (hx : x.Made ip r)
    (h : match x.outcome with
      | .ok sock => tr' = [] ∧ res = .ok sock
      | .error e => (VclDgramSocket.bindAttempts ipStr r n (some e)).Run tr' res) :
    (VclDgramSocket.bindAttempts ipStr r (n + 1) lastErr).Run (x.events ++ tr') res := by
  change (genRange portLow portHigh >>= _).Run _ res
  have hdraw : x.events ++ tr' = [⟨.genRange portLow portHigh,x.port⟩] ++ (x.trace ++ tr') := rfl
  rw [hdraw]
  have hcall : (genRange portLow portHigh).Run [⟨.genRange portLow portHigh,x.port⟩] (.ok x.port) :=
    run_call _ _
  refine run_bind hcall ?_
  rw [hparse x.port (drawn_le hx.drawn)]
  refine run_bind (run_attempt_of hx.run) ?_
  cases ho : x.outcome with
  | ok sock =>
    rw [ho] at h
    obtain ⟨rfl,rfl⟩ := h
    exact run_pure sock
  | error e =>
    rw [ho] at h
    exact h

theorem attempts_retries (hparse : Reads ipStr ip) (hdrawn : Drawn tr)
    (h : (VclDgramSocket.bindAttempts ipStr r (n + 1) lastErr).Run tr res) :
    ∃ xs, Retries (n + 1) ip r xs res ∧ tr = xs.flatMap Attempt.events := by
  induction n generalizing tr lastErr with
  | zero =>
    obtain ⟨x,tr',hx,rfl,hrest⟩ := attempts_step hparse hdrawn h
    cases ho : x.outcome with
    | ok sock =>
      rw [ho] at hrest
      obtain ⟨rfl,rfl⟩ := hrest
      exact ⟨[x],retries_bound hx ho,by simp⟩
    | error e =>
      rw [ho] at hrest
      cases hrest
      exact ⟨[x],retries_exhausted hx ho,by simp⟩
  | succ n ih =>
    obtain ⟨x,tr',hx,rfl,hrest⟩ := attempts_step hparse hdrawn h
    cases ho : x.outcome with
    | ok sock =>
      rw [ho] at hrest
      obtain ⟨rfl,rfl⟩ := hrest
      exact ⟨[x],retries_bound hx ho,by simp⟩
    | error e =>
      rw [ho] at hrest
      have hlater : Drawn tr' := fun e he => hdrawn e (List.mem_append_right _ he)
      obtain ⟨xs,hxs,rfl⟩ := ih hlater hrest
      exact ⟨x :: xs,retries_cons hx ⟨e,ho⟩ hxs,by simp⟩

theorem retries_run (hparse : Reads ipStr ip) (h : Retries (n + 1) ip r xs res) :
    (VclDgramSocket.bindAttempts ipStr r (n + 1) lastErr).Run (xs.flatMap Attempt.events) res := by
  induction xs generalizing n lastErr with
  | nil =>
    obtain ⟨x,hx,-⟩ := h.last
    cases hx
  | cons x xs ih =>
    have hx := h.made x (List.mem_cons_self ..)
    rw [List.flatMap_cons]
    apply attempts_run hparse hx
    cases xs with
    | nil =>
      obtain ⟨rfl,hone⟩ := retries_single_inv h
      cases ho : x.outcome with
      | ok sock => exact ⟨rfl,by rw [Attempt.result,ho]; rfl⟩
      | error e =>
        obtain rfl : n = 0 := by
          have := hone ⟨e,ho⟩
          omega
        rw [Attempt.result,ho]
        exact .ret _
    | cons y ys =>
      obtain ⟨⟨e,ho⟩,m,hm,hrest⟩ := retries_cons_inv h
      obtain rfl : n = m := by omega
      rw [ho]
      cases n with
      | zero =>
        have hlen := hrest.bounded
        rw [List.length_cons] at hlen
        omega
      | succ n => exact ih hrest

end Attempts

theorem unbracketed_run (h : (VclDgramSocket.bindEphemeralV6 r).Run tr res) : tr.length = 1 := by
  rw [VclDgramSocket.bindEphemeralV6,VclDgramSocket.bindRandomEphemeral,
    VclDgramSocket.bindAttempts] at h
  obtain ⟨port,tr',rfl,hport⟩ := run_call_bind h
  rw [parse_unbracketed port] at hport
  cases hport
  rfl

theorem retries_length (h : Retries n ip r xs res) : 1 < (xs.flatMap Attempt.events).length := by
  cases xs with
  | nil =>
    obtain ⟨x,hx,-⟩ := h.last
    cases hx
  | cons x xs =>
    have hx := h.made x (List.mem_cons_self ..)
    have hne := List.length_pos_of_ne_nil (dgramBind_nonempty hx.run)
    rw [List.flatMap_cons,List.length_append,Attempt.events,List.length_cons]
    omega

structure EphemeralIff (f : Family) (r : VclReactor) : Prop where
  sound : ∀ tr res, Drawn tr → (f.bindEphemeral r).Run tr res →
    ((∃ xs, Retries 8 f.wildcard r xs res ∧ tr = xs.flatMap Attempt.events) ↔ f = .v4)
  complete : ∀ xs res, Retries 8 f.wildcard r xs res →
    ((f.bindEphemeral r).Run (xs.flatMap Attempt.events) res ↔ f = .v4)

omit [Platform] in
theorem unspecified_reads : Reads "0.0.0.0" Family.v4.wildcard :=
  fun _ hport => parse_unspecifiedV4 hport

theorem ephemeral_retries_iff (f : Family) (r : VclReactor) : EphemeralIff f r := by
  cases f with
  | v4 =>
    constructor
    · intro tr res hdrawn hrun
      have hattempts : (VclDgramSocket.bindAttempts "0.0.0.0" r 8 none).Run tr res := hrun
      exact iff_of_true (attempts_retries unspecified_reads hdrawn hattempts) rfl
    · intro xs res hxs
      have hattempts : (VclDgramSocket.bindAttempts "0.0.0.0" r 8 none).Run
          (xs.flatMap Attempt.events) res := retries_run unspecified_reads hxs
      exact iff_of_true hattempts rfl
  | v6 =>
    constructor
    · intro tr res hdrawn hrun
      have hlen := unbracketed_run hrun
      refine iff_of_false ?_ (by decide)
      rintro ⟨xs,hxs,rfl⟩
      have hlong := retries_length hxs
      omega
    · intro xs res hxs
      refine iff_of_false ?_ (by decide)
      intro hrun
      have hlen := unbracketed_run hrun
      have hlong := retries_length hxs
      omega

end Retrying

def inRange : Ev → Bool
  | ⟨.genRange low high,port⟩ => decide (low ≤ port ∧ port ≤ high)
  | _ => true

theorem inRange_iff {e : Ev} : inRange e = true ↔ InRange e := by
  obtain ⟨op,reply⟩ := e
  cases op
  case genRange low high => exact decide_eq_true_iff
  all_goals exact iff_of_true rfl trivial

instance instDecidableInRange : DecidablePred InRange := fun _ => decidable_of_iff _ inRange_iff

instance instDecidableDrawn : DecidablePred Drawn := fun tr =>
  inferInstanceAs (Decidable (∀ e ∈ tr, InRange e))

def passing (i : ℕ) (c : Call) : Reply c :=
  match c with
  | .instantNow => millis (200 * i)
  | c => obliging c

theorem ephemeral_retries_iff_v4 :
    ∃ tr res, Drawn tr ∧ (@Family.bindEphemeral host .v4 ⟨9⟩).Run tr res ∧
      ∃ xs, @Retries host 8 Family.v4.wildcard ⟨9⟩ xs res ∧ tr = xs.flatMap Attempt.events := by
  obtain ⟨res,tr,hrun,hdrawn⟩ := Fallible.exec_sat
    (x := @Family.bindEphemeral host .v4 ⟨9⟩) (P := fun _ tr => Drawn tr) passing 20
    (by decide +kernel)
  have hiff := @EphemeralIff.sound host _ _ (@ephemeral_retries_iff host .v4 ⟨9⟩) tr res hdrawn hrun
  exact ⟨tr,res,hdrawn,hrun,hiff.mpr rfl⟩

theorem ephemeral_v6_unparsed :
    ∃ tr res, Drawn tr ∧ (@Family.bindEphemeral host .v6 ⟨9⟩).Run tr res ∧
      res = .error (.err (.api "ephemeral addr parse: invalid socket address syntax" (-1))) ∧
      ¬ ∃ xs, @Retries host 8 Family.v6.wildcard ⟨9⟩ xs res ∧ tr = xs.flatMap Attempt.events := by
  have hrun : (@VclDgramSocket.bindAttempts host "::" ⟨9⟩ 8 none).Run
      [⟨.genRange portLow portHigh,(40000 : ℕ)⟩]
      (.error (.err (.api "ephemeral addr parse: invalid socket address syntax" (-1)))) := by
    have hcall : (genRange portLow portHigh).Run [⟨.genRange portLow portHigh,(40000 : ℕ)⟩]
        (.ok 40000) := run_call _ _
    refine run_bind hcall ?_
    rw [parse_unbracketed]
    exact .ret _
  refine ⟨_,_,by decide,hrun,rfl,?_⟩
  rintro ⟨xs,hxs,htr⟩
  have hlong := @retries_length host _ _ _ _ _ hxs
  rw [← htr] at hlong
  exact absurd hlong (by decide)

end VclRs
