import VclRs.Interaction.Runs
import VclRs.Datagrams.Desk
import VclRs.Schedule

namespace VclRs

open Interaction Fallible

abbrev Stamped := Instant × Ev

def reading : Ev → Option Instant
  | ⟨.instantNow,now⟩ => some now
  | _ => none

def receives : Call → Prop
  | .sessionRecvfrom _ _ => True
  | _ => False

structure Clocked (tr : List Stamped) : Prop where
  nondecreasing : (tr.map Prod.fst).Pairwise (· ≤ ·)
  faithful : ∀ x ∈ tr, ∀ now, reading x.2 = some now → now = x.1

def deadlineOf (timeout : Duration) (tr : List Ev) : Option Instant :=
  (tr.findSome? reading).map (· + timeout)

theorem deadlineOf_stays {timeout : Duration} {past : List Ev} {due : Instant}
    (h : deadlineOf timeout past = some due) (e : Ev) : deadlineOf timeout (past ++ [e]) = some due := by
  obtain ⟨start,hstart,rfl⟩ := Option.map_eq_some_iff.mp h
  rw [deadlineOf,List.findSome?_append,hstart]
  rfl

abbrev Queried := Except Stop (List UInt8 × SocketAddr)

def Finishing (due : Instant) (q : Prog Call Reply Queried) : Prop :=
  (∃ r, q = .ret r) ∨
    ∃ k, q = .call .instantNow k ∧ ∀ now, due ≤ now → k now = .ret (.error (.err .timeout))

def LastLate (due : Instant) (tr : List Stamped) (q : Prog Call Reply Queried) : Prop :=
  ∀ pre x post, tr = pre ++ x :: post → receives x.2.op → due ≤ x.1 →
    (∀ y ∈ post, ¬ receives y.2.op) ∧ Finishing due q

def Punctual (timeout : Duration) (tr : List Stamped) (q : Prog Call Reply Queried) : Prop :=
  ∀ due, deadlineOf timeout (tr.map Prod.snd) = some due → LastLate due tr q

section Query

variable [Platform]

def Stray (peer : SocketAddr) : Ev → Prop
  | ⟨.sessionRecvfrom _ _,(rc,_,ep)⟩ => 0 ≤ rc ∧ (addrFromEndpoint ep).ip ≠ peer.ip
  | _ => False

def NoLateStray (peer : SocketAddr) (due : Instant) (tr : List Stamped) : Prop :=
  ∀ x ∈ tr, due ≤ x.1 → ¬ Stray peer x.2

def Undisturbed (peer : SocketAddr) (timeout : Duration) (tr : List Stamped) : Prop :=
  ∀ due, deadlineOf timeout (tr.map Prod.snd) = some due → NoLateStray peer due tr

def Restarts (q : Prog Call Reply Queried) : Prop :=
  q = .stall ∨ ∃ sh n k, q = .call (.sessionRecvfrom sh n) k

def Onward (peer : SocketAddr) (due : Instant) (e : Ev) (q : Prog Call Reply Queried) : Prop :=
  (Stray peer e → Restarts q) ∧ (receives e.op → ¬ Stray peer e → Finishing due q)

def queryBody (u : VclUdpSyncSocket) (peer : SocketAddr) (due : Instant) (buf : List UInt8) :
    Vcl (List UInt8 ⊕ (List UInt8 × SocketAddr)) := do
  match ← attempt (recvfrom u.handle buf) with
  | .ok x =>
    if x.1.2.ip ≠ peer.ip then pure (.inl x.2)
    else pure (.inr (x.2.take x.1.1,x.1.2))
  | .error e =>
    if e = .wouldBlock then do
      let now ← instantNow
      rejectIf (due ≤ now) .timeout
      ffi (.sleep (millis 5))
      pure (.inl buf)
    else err e

variable {u : VclUdpSyncSocket} {peer : SocketAddr} {query : List UInt8} {timeout : Duration}
variable {due : Instant} {buf : List UInt8}

theorem query_prog : (u.query peer query timeout).prog =
    .call (.sessionSendto u.handle (query.take (asU32 query.length)) (endpointIntoBuf peer zeroed))
      (fun rc => if rc < 0 then .ret (.error (.err (fromRc rc)))
        else .call .instantNow (fun start => (Fallible.loop (queryBody u peer (start + timeout))
          (List.replicate 4096 0)).prog)) := by
  change Prog.call _ _ = Prog.call _ _
  congr 1
  funext (rc : Int)
  change (((checkRc rc).prog.bind _).bind _) = _
  by_cases h : rc < 0
  · rw [checkRc,rejectIf,if_pos h,if_pos h]
    rfl
  · rw [checkRc,rejectIf,if_neg h,if_neg h]
    rfl

def round (u : VclUdpSyncSocket) (peer : SocketAddr) (due : Instant) (n : ℕ) (buf : List UInt8) :
    Prog Call Reply Queried :=
  Prog.iterate (fun buf => (queryBody u peer due buf).prog.bind (fun r => .ret (flip r))) n buf

theorem round_succ (n : ℕ) : round u peer due (n + 1) buf =
    .call (.sessionRecvfrom u.handle (asU32 buf.length)) (fun x =>
      match verdict buf x with
      | .ok y =>
        if y.1.2.ip ≠ peer.ip then round u peer due n y.2
        else .ret (.ok (y.2.take y.1.1,y.1.2))
      | .error e =>
        if e = .wouldBlock then .call .instantNow (fun now =>
          if due ≤ now then .ret (.error (.err .timeout))
          else .call (.sleep (millis 5)) (fun _ => round u peer due n buf))
        else .ret (.error (.err e))) := by
  change ((((attempt (recvfrom u.handle buf)).prog.bind _).bind _).bind _) = _
  rw [recvfrom_prog]
  change Prog.call _ _ = Prog.call _ _
  congr 1
  funext x
  cases hv : verdict buf x with
  | ok y =>
    simp only [hv,Prog.bind]
    split_ifs with hstray <;> rfl
  | error e =>
    simp only [hv,Prog.bind]
    split_ifs with hwb
    · change Prog.call _ _ = Prog.call _ _
      congr 1
      funext (now : ℕ)
      change ((((rejectIf (due ≤ now) .timeout).prog.bind _).bind _).bind _) = _
      rw [rejectIf]
      split_ifs with hdue <;> rfl
    · rfl

theorem stray_receives {e : Ev} (h : Stray peer e) : receives e.op := by
  obtain ⟨op,x⟩ := e
  cases op <;> first
    | exact h.elim
    | trivial

theorem onward_other {e : Ev} {q : Prog Call Reply Queried} (h : ¬ receives e.op) :
    Onward peer due e q := by
  exact ⟨fun hs => absurd (stray_receives hs) h,fun hr => absurd hr h⟩

theorem stray_iff (buf : List UInt8) {sh : Handle} {n : ℕ} {x : Received} :
    Stray peer ⟨.sessionRecvfrom sh n,x⟩ ↔ ¬ x.1 < 0 ∧ (handed buf x).1.2.ip ≠ peer.ip := by
  rw [not_lt]
  rfl

theorem round_onward (n : ℕ) (buf : List UInt8) :
    Restarts (round u peer due n buf) ∧ (round u peer due n buf).Upholds (Onward peer due) := by
  induction n generalizing buf with
  | zero => exact ⟨.inl rfl,trivial⟩
  | succ n ih =>
    rw [round_succ]
    refine ⟨.inr ⟨_,_,_,rfl⟩,?_⟩
    intro x
    dsimp only
    by_cases hneg : x.1 < 0
    · have hstray : ¬ Stray peer ⟨.sessionRecvfrom u.handle (asU32 buf.length),x⟩ := by
        rw [stray_iff buf]
        exact fun h => h.1 hneg
      rw [verdict_refused hneg]
      dsimp only
      split_ifs with hwb
      · refine ⟨⟨fun h => absurd h hstray,fun _ _ => .inr ⟨_,rfl,?_⟩⟩,?_⟩
        · intro now hnow
          exact if_pos hnow
        · intro (now : ℕ)
          refine ⟨onward_other id,?_⟩
          dsimp only
          split_ifs with hdue
          · trivial
          · intro _
            exact ⟨onward_other id,(ih buf).2⟩
      · exact ⟨⟨fun h => absurd h hstray,fun _ _ => .inl ⟨_,rfl⟩⟩,trivial⟩
    · rw [verdict_taken hneg]
      dsimp only
      split_ifs with hip
      · have hstray : Stray peer ⟨.sessionRecvfrom u.handle (asU32 buf.length),x⟩ :=
          (stray_iff buf).mpr ⟨hneg,hip⟩
        exact ⟨⟨fun _ => (ih _).1,fun _ h => absurd hstray h⟩,(ih _).2⟩
      · have hstray : ¬ Stray peer ⟨.sessionRecvfrom u.handle (asU32 buf.length),x⟩ := by
          rw [stray_iff buf]
          exact fun h => hip h.2
        exact ⟨⟨fun h => absurd h hstray,fun _ _ => .inl ⟨_,rfl⟩⟩,trivial⟩

theorem round_stray {n : ℕ} {x : Received} (hrc : ¬ x.1 < 0)
    (hip : (handed buf x).1.2.ip ≠ peer.ip) :
    Prog.Step (round u peer due (n + 1) buf) ⟨.sessionRecvfrom u.handle (asU32 buf.length),x⟩
      (round u peer due n (patch buf x.2.1)) := by
  rw [round_succ]
  apply Prog.step_call
  rw [verdict_taken hrc]
  exact if_pos hip

theorem round_expires {n : ℕ} {x : Received} {now : Instant} (hrc : x.1 < 0)
    (hwb : fromRc x.1 = .wouldBlock) (hdue : due ≤ now) :
    Prog.Path (round u peer due (n + 1) buf)
      [⟨.sessionRecvfrom u.handle (asU32 buf.length),x⟩,⟨.instantNow,now⟩]
      (.ret (.error (.err .timeout))) := by
  rw [round_succ]
  refine .cons (Prog.step_call rfl) ?_
  rw [verdict_refused hrc]
  dsimp only
  rw [if_pos hwb]
  exact .cons (Prog.step_call (if_pos hdue)) (.nil _)

theorem loop_onward (due : Instant) (buf : List UInt8) :
    (Fallible.loop (queryBody u peer due) buf).prog.Upholds (Onward peer due) :=
  fun n => (round_onward n buf).2

section Paths

variable {p q q' : Prog Call Reply Queried} {e : Ev} {tr : List Ev}

omit [Platform] in
theorem restarts_step (h : Restarts p) (hs : Prog.Step p e q) : receives e.op := by
  rcases h with rfl | ⟨sh,n,k,rfl⟩
  · cases hs
  · cases hs
    trivial

omit [Platform] in
theorem restarts_unfinished (h : Restarts p) : ¬ Finishing due p := by
  rcases h with rfl | ⟨sh,n,k,rfl⟩
  · rintro (⟨r,hr⟩ | ⟨k,hk,-⟩)
    · cases hr
    · cases hk
  · rintro (⟨r,hr⟩ | ⟨k,hk,-⟩)
    · cases hr
    · cases hk

omit [Platform] in
theorem finishing_path {post : List Stamped} (h : Finishing due p)
    (hnow : ∀ x ∈ post, ∀ now, reading x.2 = some now → due ≤ now)
    (hp : Prog.Path p (post.map Prod.snd) q) :
    (∀ x ∈ post, ¬ receives x.2.op) ∧ Finishing due q := by
  cases post with
  | nil =>
    cases hp
    exact ⟨by simp,h⟩
  | cons x post =>
    obtain ⟨t,e⟩ := x
    rcases h with ⟨r,rfl⟩ | ⟨k,rfl,hk⟩
    · cases hp with
      | cons hs _ => cases hs
    · cases hp with
      | cons hs hp =>
        cases hs with
        | call now =>
          have hdue : due ≤ now := hnow _ (List.mem_cons_self ..) now rfl
          rw [hk now hdue] at hp
          cases post with
          | nil =>
            cases hp
            refine ⟨?_,.inl ⟨_,rfl⟩⟩
            intro y hy
            rw [List.mem_singleton.mp hy]
            exact id
          | cons y post =>
            cases hp with
            | cons hs _ => cases hs

omit [Platform] in
theorem clocked_tail {x : Stamped} {tr : List Stamped} (h : Clocked (x :: tr)) : Clocked tr :=
  ⟨(List.pairwise_cons.mp h.nondecreasing).2,fun y hy => h.faithful y (List.mem_cons_of_mem x hy)⟩

omit [Platform] in
theorem lastLate_cons {x : Stamped} {tr : List Stamped} (hx : ¬ receives x.2.op) :
    LastLate due (x :: tr) q ↔ LastLate due tr q := by
  constructor
  · rintro h pre y post rfl
    exact h (x :: pre) y post rfl
  · intro h pre y post htr hy
    cases pre with
    | nil =>
      cases htr
      exact absurd hy hx
    | cons z pre =>
      cases htr
      exact h pre y post rfl hy

theorem noLateStray_cons {x : Stamped} {tr : List Stamped} (hx : ¬ receives x.2.op) :
    NoLateStray peer due (x :: tr) ↔ NoLateStray peer due tr := by
  rw [NoLateStray,List.forall_mem_cons]
  apply and_iff_right
  intro _ hs
  exact hx (stray_receives hs)

theorem turn_at {pre post : List Stamped} {x : Stamped} (hp : p.Upholds (Onward peer due))
    (hpath : Prog.Path p ((pre ++ x :: post).map Prod.snd) q) :
    ∃ p', Onward peer due x.2 p' ∧ Prog.Path p' (post.map Prod.snd) q := by
  rw [List.map_append,List.map_cons] at hpath
  obtain ⟨p₁,hpre,hrest⟩ := Prog.path_append hpath
  cases hrest with
  | cons hs hpost =>
    have hturn := Prog.upholds_step (Prog.upholds_path hp hpre) hs
    exact ⟨_,hturn.1,hpost⟩

theorem late_iff {tr : List Stamped} (hp : p.Upholds (Onward peer due)) (hclock : Clocked tr)
    (hpath : Prog.Path p (tr.map Prod.snd) q) : LastLate due tr q ↔ NoLateStray peer due tr := by
  constructor
  · intro h x hx hlate hs
    obtain ⟨pre,post,rfl⟩ := List.append_of_mem hx
    obtain ⟨p',hturn,hpost⟩ := turn_at hp hpath
    obtain ⟨hnone,hfin⟩ := h pre x post rfl (stray_receives hs) hlate
    have hrestarts := hturn.1 hs
    cases post with
    | nil =>
      cases hpost
      exact restarts_unfinished hrestarts hfin
    | cons y post =>
      cases hpost with
      | cons hstep _ => exact hnone y (List.mem_cons_self ..) (restarts_step hrestarts hstep)
  · rintro h pre x post rfl hr hlate
    obtain ⟨p',hturn,hpost⟩ := turn_at hp hpath
    have hmem : x ∈ pre ++ x :: post := List.mem_append_right pre (List.mem_cons_self ..)
    have hfin := hturn.2 hr (h x hmem hlate)
    refine finishing_path hfin ?_ hpost
    intro y hy now hnow
    have hin : y ∈ pre ++ x :: post := List.mem_append_right pre (List.mem_cons_of_mem x hy)
    have hsorted := hclock.nondecreasing
    rw [List.map_append,List.map_cons,List.pairwise_append,List.pairwise_cons] at hsorted
    rw [hclock.faithful y hin now hnow]
    exact le_trans hlate (hsorted.2.1.1 y.1 (List.mem_map_of_mem hy))

end Paths

theorem punctual_iff (u : VclUdpSyncSocket) (peer : SocketAddr) (query : List UInt8)
    (timeout : Duration) (tr : List Stamped) (q : Prog Call Reply Queried) (hclock : Clocked tr)
    (hpath : Prog.Path (u.query peer query timeout).prog (tr.map Prod.snd) q) :
    Punctual timeout tr q ↔ Undisturbed peer timeout tr := by
  have hunset (h : deadlineOf timeout (tr.map Prod.snd) = none) :
      Punctual timeout tr q ↔ Undisturbed peer timeout tr := by
    simp [Punctual,Undisturbed,h]
  rw [query_prog] at hpath
  match tr with
  | [] => exact hunset rfl
  | [x] =>
    cases hpath with
    | cons hs _ =>
      obtain ⟨t,e⟩ := x
      cases hs
      exact hunset rfl
  | x :: y :: tr =>
    cases hpath with
    | cons hs hpath =>
      obtain ⟨t,e⟩ := x
      cases hs with
      | call rc =>
        dsimp only at hpath
        split_ifs at hpath with hneg
        · cases hpath with
          | cons hs _ => cases hs
        · obtain ⟨t',e'⟩ := y
          cases hpath with
          | cons hs hpath =>
            cases hs with
            | call start =>
              have hiff := late_iff (loop_onward (start + timeout) _) (clocked_tail (clocked_tail hclock))
                hpath
              have hset : deadlineOf timeout (List.map Prod.snd ((t,⟨.sessionSendto _ _ _,rc⟩) ::
                  (t',⟨.instantNow,start⟩) :: tr)) = some (start + timeout) := rfl
              rw [Punctual,Undisturbed,hset]
              simp only [Option.some.injEq,forall_eq']
              rw [lastLate_cons (by exact id),lastLate_cons (by exact id),
                noLateStray_cons (by exact id),noLateStray_cons (by exact id)]
              exact hiff

end Query

def askedPeer : SocketAddr := .new (.v4 (.replicate 4 10)) 53

def asked (tr : List Stamped) : List Stamped :=
  (0,⟨.sessionSendto 1 [1,2] (@endpointIntoBuf host askedPeer zeroed),(2 : Int)⟩) ::
    (0,⟨.instantNow,(0 : ℕ)⟩) :: tr

def lateTimeout : List Stamped :=
  [(7,⟨.sessionRecvfrom 1 4096,((-11 : Int),[],.default)⟩),(7,⟨.instantNow,(7 : ℕ)⟩)]

def strayDatagram : Ev :=
  ⟨.sessionRecvfrom 1 4096,((0 : Int),[],@endpointIntoBuf host (.new .unspecifiedV4 53) zeroed)⟩

def flood (n : ℕ) : List Stamped := List.replicate (n + 1) (9,strayDatagram)

def scratch : List UInt8 := List.replicate 4096 0

theorem scratch_length : asU32 scratch.length = 4096 := by
  rw [scratch,List.length_replicate]
  rfl

theorem patch_nil (buf : List UInt8) : patch buf [] = buf := by
  simp [patch]

theorem asked_path {tr : List Ev} {q : Prog Call Reply Queried} (n : ℕ)
    (h : Prog.Path (@round host ⟨1⟩ askedPeer 5 n scratch) tr q) (hne : tr ≠ []) :
    Prog.Path (@VclUdpSyncSocket.query host ⟨1⟩ askedPeer [1,2] 5).prog
      ((asked []).map Prod.snd ++ tr) q := by
  rw [@query_prog host]
  refine .cons (Prog.step_call (if_neg (by decide))) ?_
  refine .cons (Prog.step_call rfl) ?_
  cases h with
  | nil => exact absurd rfl hne
  | cons hs h => exact .cons (.unroll n hs) h

theorem flood_path (n m : ℕ) :
    Prog.Path (@round host ⟨1⟩ askedPeer 5 (n + m) scratch) (List.replicate n strayDatagram)
      (@round host ⟨1⟩ askedPeer 5 m scratch) := by
  induction n with
  | zero =>
    rw [zero_add]
    exact .nil _
  | succ n ih =>
    have hstep := @round_stray host ⟨1⟩ askedPeer 5 scratch (n + m)
      ((0 : Int),[],@endpointIntoBuf host (.new .unspecifiedV4 53) zeroed) (by decide) (by decide)
    rw [scratch_length,patch_nil] at hstep
    rw [Nat.add_right_comm]
    exact .cons hstep ih

theorem flood_clocked (n : ℕ) : Clocked (asked (flood n)) := by
  constructor
  · simp [asked,flood,List.pairwise_replicate]
  · intro x hx now hnow
    simp only [asked,flood,List.mem_cons,List.mem_replicate] at hx
    rcases hx with rfl | rfl | ⟨-,rfl⟩ <;> cases hnow
    rfl

theorem punctual_iff_expired : Clocked (asked lateTimeout) ∧ ∃ q,
    Prog.Path (@VclUdpSyncSocket.query host ⟨1⟩ askedPeer [1,2] 5).prog
      ((asked lateTimeout).map Prod.snd) q ∧ Punctual 5 (asked lateTimeout) q := by
  have hclock : Clocked (asked lateTimeout) := by
    constructor
    · decide
    · intro x hx now hnow
      simp only [asked,lateTimeout,List.mem_cons,List.not_mem_nil,or_false] at hx
      rcases hx with rfl | rfl | rfl | rfl <;> cases hnow <;> rfl
  have hquiet : @Undisturbed host askedPeer 5 (asked lateTimeout) := by
    intro due _ x hx _
    simp only [asked,lateTimeout,List.mem_cons,List.not_mem_nil,or_false] at hx
    rcases hx with rfl | rfl | rfl | rfl <;> simp [Stray]
  have hround := @round_expires host ⟨1⟩ askedPeer 5 scratch 0 ((-11 : Int),[],.default) 7
    (by decide) (by decide) (by decide)
  rw [scratch_length] at hround
  have hpath := asked_path 1 hround (by simp)
  exact ⟨hclock,_,hpath,(@punctual_iff host ⟨1⟩ askedPeer [1,2] 5 _ _ hclock hpath).mpr hquiet⟩

theorem strays_outlast_deadline : deadlineOf 5 ((asked []).map Prod.snd) = some 5 ∧ ∀ n,
    Clocked (asked (flood n)) ∧ ∃ q,
      Prog.Path (@VclUdpSyncSocket.query host ⟨1⟩ askedPeer [1,2] 5).prog
        ((asked (flood n)).map Prod.snd) q ∧ ¬ Punctual 5 (asked (flood n)) q := by
  refine ⟨rfl,?_⟩
  intro n
  have hpath := asked_path (n + 1 + 1) (flood_path (n + 1) 1) (by simp)
  rw [← List.map_replicate (n := n + 1) (a := ((9,strayDatagram) : Stamped)) (f := Prod.snd)] at hpath
  refine ⟨flood_clocked n,_,hpath,?_⟩
  intro h
  obtain ⟨-,hfin⟩ := h 5 rfl (asked []) (9,strayDatagram) (List.replicate n (9,strayDatagram)) rfl
    trivial (by decide)
  have hrestarts : Restarts (@round host ⟨1⟩ askedPeer 5 1 scratch) :=
    (@round_onward host ⟨1⟩ askedPeer 5 1 scratch).1
  exact restarts_unfinished hrestarts hfin

end VclRs
