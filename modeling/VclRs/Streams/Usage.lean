import VclRs.Interaction.Crowd
import VclRs.Streams.Traffic

namespace VclRs

open Interaction Fallible

abbrev Passage := List UInt8 × List UInt8

def drawn (sh : Handle) : Ev → List UInt8
  | ⟨.sessionRead sh' _,(rc,data)⟩ => if sh' = sh ∧ ¬rc < 0 then data else []
  | _ => []

def sunk (sh : Handle) : Ev → List UInt8
  | ⟨.sessionWrite sh' buf,rc⟩ => if sh' = sh ∧ ¬rc < 0 then buf.take rc.toNat else []
  | _ => []

def drawnBy (sh : Handle) (tr : List Ev) : List UInt8 := tr.flatMap (drawn sh)

def sunkBy (sh : Handle) (tr : List Ev) : List UInt8 := tr.flatMap (sunk sh)

inductive Suspends : Call → Prop
  | select (vep : Handle) (n : NotifyId) (t : Instant) : Suspends (.select vep n t)
  | recheck (n : NotifyId) : Suspends (.recheck n)

def metering (sh : Handle) (P : Passage → Prop) : Contract Call Reply Passage where
  rely _ := Within
  guar s e := Suspends e.op → P s
  next s e := (s.1 ++ drawn sh e,s.2 ++ sunk sh e)

section Metering

variable {sh : Handle} {P : Passage → Prop} {s : Passage}

theorem metering_after (tr : List Ev) :
    (metering sh P).after s tr = (s.1 ++ drawnBy sh tr,s.2 ++ sunkBy sh tr) := by
  induction tr generalizing s with
  | nil => simp [drawnBy,sunkBy]
  | cons e tr ih =>
    rw [Contract.after_cons,ih]
    simp [metering,drawnBy,sunkBy]

theorem drawnBy_concat (sh : Handle) (log : List (ℕ × Ev)) (i : ℕ) (e : Ev) :
    drawnBy sh ((log ++ [(i,e)]).map Prod.snd) = drawnBy sh (log.map Prod.snd) ++ drawn sh e := by
  simp [drawnBy]

theorem suspends_within {e : Ev} (h : Suspends e.op) : Within e := by
  obtain ⟨op,reply⟩ := e
  cases h <;> trivial

theorem waits_unmetered {vep sh' : Handle} {e : Ev} (h : Waits vep sh' e.op) :
    (metering sh P).next s e = s := by
  have hnone : drawn sh e = [] ∧ sunk sh e = [] := by
    obtain ⟨op,reply⟩ := e
    cases h <;> exact ⟨rfl,rfl⟩
  change (s.1 ++ drawn sh e,s.2 ++ sunk sh e) = s
  rw [hnone.1,hnone.2,List.append_nil,List.append_nil]

theorem waits_metered {α : Type} {x : Vcl α} {vep sh' : Handle} {Q : α → Passage → Prop}
    {E : Stop → Passage → Prop} (hx : x.Calls (Waits vep sh')) (hP : P s) (hQ : ∀ a, Q a s)
    (hE : ∀ e, E e s) : (metering sh P).wpe x Q E s :=
  Contract.wpe_still _ (fun _ he => ⟨fun _ => hP,waits_unmetered he⟩) hx hQ hE

variable [Platform]

theorem sessionRead_metered {buf : List UInt8} {Q : Except VclError (ℕ × List UInt8) → Passage → Prop}
    {E : Stop → Passage → Prop} (herr : ∀ e, Q (.error e) s)
    (hok : ∀ data : List UInt8, data.length ≤ buf.length →
      Q (.ok (data.length,patch buf data)) (s.1 ++ data,s.2)) :
    (metering sh P).wpe (attempt (sessionRead sh buf)) Q E s := by
  refine sessionRead_wpe ?_
  rintro ⟨rc,data⟩ hwithin
  have hquiet : ¬Suspends (.sessionRead sh buf.length) := by rintro ⟨⟩
  refine ⟨fun h => (hquiet h).elim,?_,?_⟩
  · intro hrc
    have hnext : (metering sh P).next s ⟨.sessionRead sh buf.length,(rc,data)⟩ = s := by
      simp only [metering,drawn,sunk,not_true_eq_false,and_false,if_false,List.append_nil,
        show rc < 0 from hrc]
    rw [hnext]
    exact herr _
  · intro hrc
    obtain ⟨hlen,hle⟩ := hwithin hrc
    have hnext : (metering sh P).next s ⟨.sessionRead sh buf.length,(rc,data)⟩ = (s.1 ++ data,s.2) := by
      simp only [metering,drawn,sunk,not_false_eq_true,and_true,if_true,List.append_nil,
        show ¬rc < 0 from hrc]
    rw [hnext,← hlen]
    exact hok data hle

theorem sessionWrite_metered {buf : List UInt8} {Q : Except VclError ℕ → Passage → Prop}
    {E : Stop → Passage → Prop} (herr : ∀ e, Q (.error e) s)
    (hok : ∀ n ≤ buf.length, Q (.ok n) (s.1,s.2 ++ buf.take n)) :
    (metering sh P).wpe (attempt (sessionWrite sh buf)) Q E s := by
  refine sessionWrite_wpe ?_
  intro rc hwithin
  have hquiet : ¬Suspends (.sessionWrite sh buf) := by rintro ⟨⟩
  refine ⟨fun h => (hquiet h).elim,?_,?_⟩
  · intro hrc
    have hnext : (metering sh P).next s ⟨.sessionWrite sh buf,rc⟩ = s := by
      simp only [metering,drawn,sunk,not_true_eq_false,and_false,if_false,List.append_nil,hrc]
    rw [hnext]
    exact herr _
  · intro hrc
    have hnext : (metering sh P).next s ⟨.sessionWrite sh buf,rc⟩ = (s.1,s.2 ++ buf.take rc.toNat) := by
      simp only [metering,drawn,sunk,not_false_eq_true,and_true,if_true,List.append_nil,hrc]
    rw [hnext]
    exact hok rc.toNat (hwithin hrc)

end Metering

section Calls

variable [Platform] {st : VclStream} {P : Passage → Prop} {s : Passage} {buf : List UInt8}

theorem read_metered (hP : P s) : (metering st.handle P).wpe (st.read buf)
    (fun x s' => ∃ data : List UInt8, x = (data.length,patch buf data) ∧ 0 < data.length ∧
      data.length ≤ buf.length ∧ s' = (s.1 ++ data,s.2))
    (fun _ s' => s' = s) s := by
  refine Contract.wpe_loop _ (fun _ s' => s' = s) ?_ rfl
  rintro _ _ rfl
  rw [Contract.wpe_bind]
  refine sessionRead_metered ?_ ?_
  · intro e
    rw [Contract.wpe_ite]
    split_ifs with he
    · rw [Contract.wpe_bind]
      exact waits_metered (waitReadable_calls _) hP (fun _ => rfl) (fun _ => rfl)
    · rfl
  · intro data hle
    rw [Contract.wpe_ite]
    split_ifs with hzero
    · have hnil : data = [] := List.length_eq_zero_iff.mp hzero
      rw [hnil,List.append_nil]
      rfl
    · exact ⟨data,rfl,Nat.pos_of_ne_zero hzero,hle,rfl⟩

theorem readExact_metered (hP : ∀ lost : List UInt8, lost.length < buf.length → P (s.1 ++ lost,s.2)) :
    (metering st.handle P).wpe (st.readExact buf)
      (fun out s' => out.length = buf.length ∧ s' = (s.1 ++ out,s.2))
      (fun _ s' => ∃ lost : List UInt8, lost.length < buf.length ∧ s' = (s.1 ++ lost,s.2)) s := by
  refine Contract.wpe_loop _ (fun acc s' => acc.2.length = buf.length ∧ acc.1 ≤ buf.length ∧
    s' = (s.1 ++ acc.2.take acc.1,s.2)) ?_ ⟨rfl,Nat.zero_le _,by simp⟩
  rintro ⟨pos,out⟩ _ ⟨hlen,hpos,rfl⟩
  dsimp only at hlen hpos ⊢
  rw [Contract.wpe_ite]
  split_ifs with hmore
  · have hpart : (out.take pos).length < buf.length := by
      rw [List.length_take]
      omega
    rw [Contract.wpe_bind]
    refine Contract.wpe_mono _ (read_metered (hP _ hpart)) ?_ ?_
    · rintro _ _ ⟨data,rfl,-,hle,rfl⟩
      rw [List.length_drop] at hle
      have htake : (out.take pos ++ patch (out.drop pos) data).take (pos + data.length) =
          out.take pos ++ data := by
        rw [List.take_append,List.take_of_length_le (by rw [List.length_take]; omega),
          List.length_take,Nat.min_eq_left (by omega),Nat.add_sub_cancel_left,
          take_patch (by rw [List.length_drop]; exact hle)]
      refine ⟨?_,by omega,?_⟩
      · change (out.take pos ++ patch (out.drop pos) data).length = _
        rw [List.length_append,patch_length,← List.length_append,List.take_append_drop,hlen]
      · change _ = (s.1 ++ (out.take pos ++ patch (out.drop pos) data).take (pos + data.length),s.2)
        rw [htake,List.append_assoc]
    · rintro e _ rfl
      exact ⟨out.take pos,hpart,rfl⟩
  · have hall : out.take pos = out := List.take_of_length_le (by omega)
    rw [hall]
    exact ⟨hlen,rfl⟩

theorem writeAll_metered (hP : ∀ n < buf.length, P (s.1,s.2 ++ buf.take n)) :
    (metering st.handle P).wpe (st.writeAll buf)
      (fun _ s' => s' = (s.1,s.2 ++ buf))
      (fun _ s' => ∃ n < buf.length, s' = (s.1,s.2 ++ buf.take n)) s := by
  refine Contract.wpe_loop _ (fun pos s' => s' = (s.1,s.2 ++ buf.take pos)) ?_ (by simp)
  rintro pos _ rfl
  rw [Contract.wpe_ite]
  split_ifs with hmore
  · rw [Contract.wpe_bind]
    refine sessionWrite_metered ?_ ?_
    · intro e
      rw [Contract.wpe_ite]
      split_ifs with he
      · rw [Contract.wpe_bind]
        exact waits_metered (waitWritable_calls _) (hP pos hmore) (fun _ => rfl)
          (fun _ => ⟨pos,hmore,rfl⟩)
      · exact ⟨pos,hmore,rfl⟩
    · intro n _
      change _ = (s.1,s.2 ++ buf.take (pos + n))
      rw [List.append_assoc,← List.take_add]
  · change _ = (s.1,s.2 ++ buf)
    rw [List.take_of_length_le (Nat.le_of_not_lt hmore)]

end Calls

inductive StreamCall where
  | read (buf : List UInt8)
  | readExact (buf : List UInt8)
  | writeAll (buf : List UInt8)
deriving DecidableEq, Repr

inductive StreamReply where
  | got (n : ℕ) (buf : List UInt8)
  | filled (buf : List UInt8)
  | wrote
deriving DecidableEq, Repr

def StreamCall.Midway : StreamCall → Passage → Prop
  | .read _, s => s = ([],[])
  | .readExact buf, s => s.1.length < buf.length ∧ s.2 = []
  | .writeAll buf, s => ∃ n < buf.length, s = ([],buf.take n)

def StreamCall.Answered : StreamCall → StreamReply → Passage → Prop
  | .read buf, .got n out, s => 0 < n ∧ n ≤ buf.length ∧ n = s.1.length ∧ out = s.1 ++ buf.drop n ∧ s.2 = []
  | .readExact buf, .filled out, s => out.length = buf.length ∧ s = (out,[])
  | .writeAll buf, .wrote, s => s = ([],buf)
  | _, _, _ => False

def StreamCall.Left (c : StreamCall) : Except Stop StreamReply → Passage → Prop
  | .ok a => c.Answered a
  | .error _ => c.Midway

section Sharing

variable [Platform] (st : VclStream) (inbound : List UInt8)

def VclStream.perform : StreamCall → Vcl StreamReply
  | .read buf => do
    let (n,out) ← st.read buf
    pure (.got n out)
  | .readExact buf => do
    let out ← st.readExact buf
    pure (.filled out)
  | .writeAll buf => do
    st.writeAll buf
    pure .wrote

def VclStream.venue : Venue Call Reply StreamCall (Except Stop StreamReply) where
  code c := (st.perform c).prog
  admits log e := Within e ∧
    drawn st.handle e <+: inbound.drop (drawnBy st.handle (log.map Prod.snd)).length

theorem perform_metered (c : StreamCall) :
    (metering st.handle c.Midway).wpe (st.perform c) c.Answered (fun _ => c.Midway) ([],[]) := by
  cases c with
  | read buf =>
    rw [VclStream.perform,Contract.wpe_bind]
    apply Contract.wpe_mono _ (read_metered (P := StreamCall.Midway (.read buf)) rfl)
    · rintro _ _ ⟨data,rfl,hpos,hle,rfl⟩
      have hout : patch buf data = data ++ buf.drop data.length := by
        rw [patch,List.take_of_length_le hle]
      exact ⟨hpos,hle,rfl,hout,rfl⟩
    · rintro e _ rfl
      rfl
  | readExact buf =>
    rw [VclStream.perform,Contract.wpe_bind]
    apply Contract.wpe_mono _ (readExact_metered (P := StreamCall.Midway (.readExact buf)) ?_)
    · rintro out _ ⟨hlen,rfl⟩
      exact ⟨hlen,rfl⟩
    · rintro e _ ⟨lost,hlen,rfl⟩
      exact ⟨hlen,rfl⟩
    · intro lost hlen
      exact ⟨hlen,rfl⟩
  | writeAll buf =>
    rw [VclStream.perform,Contract.wpe_bind]
    apply Contract.wpe_mono _ (writeAll_metered (P := StreamCall.Midway (.writeAll buf)) ?_)
    · rintro _ _ rfl
      rfl
    · rintro e _ ⟨n,hn,rfl⟩
      exact ⟨n,hn,rfl⟩
    · intro n hn
      exact ⟨n,hn,rfl⟩

def VclStream.pledge : Pledge (st.venue inbound) Passage where
  contract c := metering st.handle c.Midway
  init _ := ([],[])
  post c := c.Left
  keeps c := by
    apply Contract.wp_mono _ (perform_metered st c)
    intro r s h
    cases r with
    | ok a => exact h
    | error e => exact h
  relies _ _ _ _ h := h.1

variable {inbound} {C : Crowd Call Reply StreamCall (Except Stop StreamReply)}

def VclStream.share (C : Crowd Call Reply StreamCall (Except Stop StreamReply)) (i : ℕ) : Passage :=
  (drawnBy st.handle (own i C.log),sunkBy st.handle (own i C.log))

structure VclStream.Shared (inbound : List UInt8)
    (C : Crowd Call Reply StreamCall (Except Stop StreamReply)) : Prop where
  consumed : drawnBy st.handle (C.log.map Prod.snd) <+: inbound
  ordered : ∀ i, (st.share C i).1.Sublist inbound
  reads : (drawnBy st.handle (C.log.map Prod.snd) : Multiset UInt8) =
    ∑ i ∈ Finset.range C.guests.length, ((st.share C i).1 : Multiset UInt8)
  writes : (sunkBy st.handle (C.log.map Prod.snd) : Multiset UInt8) =
    ∑ i ∈ Finset.range C.guests.length, ((st.share C i).2 : Multiset UInt8)
  finished : ∀ (i : ℕ) g r, C.guests[i]? = some g → g.rest.Returns r → g.kind.Left r (st.share C i)
  suspended : ∀ (i : ℕ) g c k, C.guests[i]? = some g → g.rest.Head c k → Suspends c →
    g.kind.Midway (st.share C i)

theorem consumed_reach (h : (st.venue inbound).Reach C) :
    drawnBy st.handle (C.log.map Prod.snd) <+: inbound := by
  refine Venue.log_reach (P := fun log => drawnBy st.handle (log.map Prod.snd) <+: inbound) ?_ ?_ h
  · exact List.nil_prefix
  · rintro log i e ⟨-,ha⟩ ih
    obtain ⟨rest,hrest⟩ := ih
    rw [← hrest,List.drop_left] at ha
    obtain ⟨later,hlater⟩ := ha
    refine ⟨later,?_⟩
    rw [drawnBy_concat,List.append_assoc,hlater,hrest]

theorem pledge_state (h : (st.venue inbound).Reach C) {i : ℕ}
    {g : Guest Call Reply StreamCall (Except Stop StreamReply)} (hg : C.guests[i]? = some g) :
    (st.pledge inbound).state g = st.share C i := by
  have hown := (Venue.own_past h).1 i g hg
  change (metering st.handle g.kind.Midway).after ([],[]) g.past = _
  rw [metering_after,← hown]
  rfl

theorem stream_shared (h : (st.venue inbound).Reach C) : st.Shared inbound C := by
  have hconsumed := consumed_reach st h
  constructor
  · exact hconsumed
  · intro i
    exact ((own_sublist i C.log).flatMap _).trans hconsumed.sublist
  · exact shares_sum (drawn st.handle) (Venue.log_index h)
  · exact shares_sum (sunk st.handle) (Venue.log_index h)
  · intro i g r hg hr
    have hpost := (st.pledge inbound).returned h (List.mem_of_getElem? hg) hr
    rw [pledge_state st h hg] at hpost
    exact hpost
  · intro i g c k hg hhead hc
    have hstep := Prog.head_step hhead (obliging c)
    have hguar := (st.pledge inbound).promised h (List.mem_of_getElem? hg) hstep (suspends_within hc)
    rw [pledge_state st h hg] at hguar
    exact hguar hc

end Sharing

section Dropped

def stalledThenServed : ℕ → (c : Call) → Reply c
  | 0, .sessionRead _ _ => ((-11 : Int),[])
  | _, .sessionRead _ _ => ((2 : Int),[7,8])
  | _, c => obliging c

theorem stream_shared_dropped_read : ∃ C, (@VclStream.venue host ⟨3,⟨2⟩⟩ [7,8,9]).Reach C ∧
    C.guests.map Guest.kind = [.read [0,0],.read [0,0]] ∧
      VclStream.share ⟨3,⟨2⟩⟩ C 0 = ([],[]) ∧ VclStream.share ⟨3,⟨2⟩⟩ C 1 = ([7,8],[]) ∧
        @VclStream.Shared ⟨3,⟨2⟩⟩ [7,8,9] C := by
  let _ := host
  let V := VclStream.venue ⟨3,⟨2⟩⟩ [7,8,9]
  have hfirst : V.Reach ⟨[⟨.read [0,0],[],V.code (.read [0,0])⟩],[]⟩ := .single (.enter _)
  have hwaiting : V.Admitted 0 [] [⟨.sessionRead 3 2,((-11 : Int),[])⟩,⟨.waitersEntry 2 3,(0 : ℕ)⟩,
      ⟨.instantNow,(0 : ℕ)⟩] := by
    simp [V,Venue.Admitted,VclStream.venue,Within,drawn]
  have hstalled := Venue.reach_advance (i := 0) stalledThenServed 5 3 0 rfl hwaiting hfirst
  have hsecond := hstalled.tail (.enter (.read [0,0]))
  let log : List (ℕ × Ev) := [(0,⟨.sessionRead 3 2,((-11 : Int),[])⟩),
    (0,⟨.waitersEntry 2 3,(0 : ℕ)⟩),(0,⟨.instantNow,(0 : ℕ)⟩)]
  have hserving : V.Admitted 1 log [⟨.sessionRead 3 2,((2 : Int),[7,8])⟩] := by
    simp [V,log,Venue.Admitted,VclStream.venue,Within,drawnBy,drawn]
  have hserved := Venue.reach_advance (i := 1) stalledThenServed 5 1 1 rfl hserving hsecond
  let later := log ++ [(1,⟨.sessionRead 3 2,((2 : Int),[7,8])⟩)]
  have hzero : ∀ guests, VclStream.share ⟨3,⟨2⟩⟩ ⟨guests,later⟩ 0 = ([],[]) := by
    intro guests
    simp [later,log,VclStream.share,own,drawnBy,drawn,sunkBy,sunk]
  have hone : ∀ guests, VclStream.share ⟨3,⟨2⟩⟩ ⟨guests,later⟩ 1 = ([7,8],[]) := by
    intro guests
    simp [later,log,VclStream.share,own,drawnBy,drawn,sunkBy,sunk]
  exact ⟨_,hserved,rfl,hzero _,hone _,stream_shared _ hserved⟩

end Dropped

end VclRs
