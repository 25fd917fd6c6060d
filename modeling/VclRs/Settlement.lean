import VclRs.Custody.Stream
import VclRs.World

namespace VclRs

open Interaction Fallible

def abandoned : Ev → Bool
  | ⟨.joinBlocking,.dropped⟩ => true
  | _ => false

abbrev Attended (e : Ev) : Prop := abandoned e = false

def InScope : Api → Prop
  | .reactorNew => True
  | .reactorClone _ => True
  | .reactorDrop _ => True
  | .tick _ => True
  | .streamConnect _ _ _ _ => True
  | .streamConnectAsync _ _ _ _ => True
  | .listenerAccept _ => True
  | .streamDrop _ => True
  | _ => False

def strayed (k : Job) (e : Ev) : ℕ :=
  match k.api, e with
  | .reactorNew, ⟨.epollCreate,rc⟩ => if rc < 0 then 0 else 1
  | .streamConnect _ _ _ _, ⟨.sessionConnect _ _,rc⟩ => if rc < 0 then 0 else 1
  | _, _ => 0

def strays (k : Job) : Contract Call Reply ℕ where
  rely _ e := Attended e
  guar _ _ := True
  next n e := n + strayed k e

def Job.terms (k : Job) : Terms Handle :=
  Terms.byNumber k.home (fun sh => ∃ o ∈ k.api.lends, sh ∈ o.handles) false Attended

def Obj.owes : Obj → Multiset Handle
  | .stream s => {s.handle}
  | _ => 0

def Job.settles (k : Job) : Contract Call Reply (Holding Thread Handle × ℕ) :=
  k.terms.custody.pair (strays k)

def worth (os : Multiset (Thread × Obj)) : Multiset Handle := (os.map (fun x => x.2.owes)).sum

def Accounted (os : Multiset (Thread × Obj)) (s : Holding Thread Handle × ℕ) : Prop :=
  ∃ lost : Multiset Handle, s.1.owed = worth os + lost ∧ lost.card = s.2

section Counting

variable {k : Job} {α : Type} {n : ℕ}

theorem strays_wpe {x : Vcl α} {P : Call → Prop} (hP : ∀ e, P e.op → strayed k e = 0)
    (hx : x.Calls P) {Q : α → ℕ → Prop} {E : Stop → ℕ → Prop} (hQ : ∀ a, Q a n)
    (hE : ∀ e, E e n) : (strays k).wpe x Q E n := by
  refine (strays k).wpe_still ?_ hx hQ hE
  intro e he
  refine ⟨trivial,?_⟩
  change n + strayed k e = n
  rw [hP e he,add_zero]

theorem unstrayed_wp (hk : ∀ e, strayed k e = 0) {p : Prog Call Reply (Multiset (Thread × Obj))}
    {s : Holding Thread Handle} (h : k.terms.custody.wp p (fun os s' => s'.owed = worth os) s) :
    k.settles.wp p Accounted (s,0) := by
  have hn : (strays k).wp p (fun _ m => m = 0) 0 := by
    refine (strays k).wp_of_calls ?_ (Prog.calls_of_forall (P := fun _ => True) (fun _ => trivial) p)
      rfl
    rintro m e rfl - -
    refine ⟨trivial,?_⟩
    change 0 + strayed k e = 0
    rw [hk e]
  apply Contract.wp_mono _ (Contract.wp_pair _ h hn)
  rintro os ⟨s',m⟩ ⟨ho,hm⟩
  refine ⟨0,?_,?_⟩
  · rw [add_zero]
    exact ho
  · exact hm.symm

def NotConnect : Call → Prop
  | .sessionConnect _ _ => False
  | _ => True

theorem notConnect_strayed {k : Job} (hk : k.api ≠ .reactorNew) {e : Ev} (he : NotConnect e.op) :
    strayed k e = 0 := by
  obtain ⟨api,home⟩ := k
  obtain ⟨op,reply⟩ := e
  cases api <;> first
    | exact absurd rfl hk
    | rfl
    | skip
  cases op <;> first
    | rfl
    | exact he.elim

theorem registers_notConnect {c : Call} (h : Registers c) : NotConnect c := by
  cases h <;> trivial

inductive Wakes : Call → Prop
  | fd : Wakes .mqEpollFd
  | wrap (fd : Int) : Wakes (.asyncFd fd)

theorem wakes_step {home : Thread} {s : Holding Thread Handle × ℕ} {e : Ev} (h : Wakes e.op) :
    (Job.settles ⟨.reactorNew,home⟩).guar s e ∧ (Job.settles ⟨.reactorNew,home⟩).next s e = s := by
  obtain ⟨op,reply⟩ := e
  cases h with
  | fd =>
    obtain ⟨hg,hn⟩ := Terms.permits_step (T := Job.terms ⟨.reactorNew,home⟩) (s := s.1)
      (e := ⟨.mqEpollFd,reply⟩) Terms.none_permitted
    exact ⟨⟨hg,trivial⟩,Prod.ext hn rfl⟩
  | wrap fd =>
    obtain ⟨hg,hn⟩ := Terms.permits_step (T := Job.terms ⟨.reactorNew,home⟩) (s := s.1)
      (e := ⟨.asyncFd fd,reply⟩) Terms.none_permitted
    exact ⟨⟨hg,trivial⟩,Prod.ext hn rfl⟩

theorem worth_card (os : Multiset (Thread × Obj)) :
    ((worth os).card : ℤ) = (os.map (fun x => (x.2.owes.card : ℤ))).sum := by
  induction os using Multiset.induction with
  | empty => rfl
  | cons x os ih =>
    rw [worth,Multiset.map_cons,Multiset.sum_cons,Multiset.card_add,Multiset.map_cons,
      Multiset.sum_cons,← ih,worth]
    push_cast
    rfl

theorem owed_next {s : Holding Thread Handle × ℕ} {e : Ev} (h : k.settles.guar s e) :
    (k.settles.next s e).1.owed + released e = s.1.owed + obtained e := by
  have hle : released e ≤ s.1.owed := by
    have hg := h.1.1
    rwa [show k.terms.ledger.loss s.1.site e = released e from Multiset.map_id' _] at hg
  have hnext : (k.settles.next s e).1.owed = s.1.owed - released e + obtained e := by
    change s.1.owed - (released e).map (fun sh => sh) + (obtained e + 0).map (fun sh => sh) = _
    rw [Multiset.map_id',Multiset.map_id',add_zero]
  rw [hnext,add_right_comm,tsub_add_cancel_of_le hle]

end Counting

section Streaming

variable [Platform]

def streaming : System Call Reply Job (Thread × Obj) := world InScope (fun _ _ e => Attended e)

theorem bindSource_notConnect {sh : Handle} (source : Option SocketAddr) :
    (VclStream.bindSource sh source).Calls NotConnect := by
  cases source with
  | none => exact calls_pure _
  | some src => exact calls_bind (calls_call trivial) (fun _ => checkRc_calls _)

section Connecting

variable {addr : SocketAddr} {source : Option SocketAddr} {timeout : Duration} {r : VclReactor}
variable {home : Thread} {n : ℕ} {α : Type} {Q : α → ℕ → Prop} {E : Stop → ℕ → Prop}

omit [Platform] in
theorem connecting_wpe {x : Vcl α} (hx : x.Calls NotConnect) (hQ : ∀ a, Q a n) (hE : ∀ e, E e n) :
    (strays ⟨.streamConnect addr source timeout r,home⟩).wpe x Q E n :=
  strays_wpe (fun _ => notConnect_strayed (by simp)) hx hQ hE

theorem nodelay_strays {sh : Handle} {Q : Except VclError Unit → ℕ → Prop} (hQ : ∀ a, Q a n) :
    (strays ⟨.streamConnect addr source timeout r,home⟩).wpe (attempt (setNodelay sh)) Q E n := by
  simp only [setNodelay,checkRc,wpe_attempt,Contract.wpe_bind,wpe_rejectIf]
  apply Contract.wpe_call_still
  · intro x
    exact ⟨trivial,rfl⟩
  · intro x
    split_ifs
    · exact hQ _
    · exact hQ _

theorem blockingConnect_strays :
    (strays ⟨.streamConnect addr source timeout r,home⟩).wpe
      (VclStream.blockingConnect addr) (fun _ m => m = n + 1) (fun _ m => m = n) n := by
  rw [VclStream.blockingConnect,Contract.wpe_bind]
  refine connecting_wpe (Prog.calls_mono (fun _ => registers_notConnect) registerWorkerThread_calls)
    ?_ (fun _ => rfl)
  intro _
  rw [Contract.wpe_bind]
  refine connecting_wpe (calls_call trivial) ?_ (fun _ => rfl)
  intro sh
  rw [Contract.wpe_bind]
  refine connecting_wpe (checkRc_calls _) ?_ (fun _ => rfl)
  intro _
  rw [Contract.wpe_bind,Contract.wpe_call]
  intro (rc : Int) _
  refine ⟨trivial,?_⟩
  rw [Contract.wpe_ite]
  split_ifs with hneg
  · have hn : (strays ⟨.streamConnect addr source timeout r,home⟩).next n
        ⟨.sessionConnect (handleOf sh) (endpointIntoBuf addr zeroed),rc⟩ = n := by
      simp [strays,strayed,hneg]
    rw [hn,Contract.wpe_bind]
    exact connecting_wpe (calls_call trivial) (fun _ => rfl) (fun _ => rfl)
  · simp [strays,strayed,hneg]

theorem connect_strays :
    (strays ⟨.streamConnect addr source timeout r,home⟩).wpe
      (VclStream.connect addr source timeout r) (fun _ m => m = n + 1) (fun _ m => m = n) n := by
  rw [VclStream.connect,Contract.wpe_bind]
  refine connecting_wpe (Prog.calls_mono (fun _ => registers_notConnect) registerWorkerThread_calls)
    ?_ (fun _ => rfl)
  intro _
  rw [Contract.wpe_bind]
  refine connecting_wpe (createTcp_calls trivial) ?_ (fun _ => rfl)
  intro orig
  rw [Contract.wpe_bind,owning,Contract.wpe_onFail]
  have hclose : (strays ⟨.streamConnect addr source timeout r,home⟩).wpe
      (dropSession orig) (fun _ m => m = n) (fun _ m => m = n) n :=
    connecting_wpe (dropSession_calls trivial) (fun _ => rfl) (fun _ => rfl)
  rw [Contract.wpe_bind]
  apply nodelay_strays
  intro _
  rw [Contract.wpe_bind]
  refine connecting_wpe (bindSource_notConnect source) ?_ (fun _ => hclose)
  intro _
  rw [spawnBlocking,Contract.wpe_bind]
  refine connecting_wpe (calls_call trivial) ?_ (fun _ => hclose)
  intro x
  cases x with
  | error e => exact hclose
  | ok pool =>
    rw [Contract.wpe_handle]
    apply Contract.wpe_mono _ blockingConnect_strays
    · rintro sh m rfl
      rw [join,Contract.wpe_bind,Contract.wpe_call]
      intro j hj
      refine ⟨trivial,?_⟩
      cases j with
      | dropped => cases hj
      | finished =>
        simp only [Contract.wpe_pure,Contract.wpe_bind]
        exact nodelay_strays (fun _ => rfl)
    · rintro e m rfl
      rw [join,Contract.wpe_bind,Contract.wpe_call]
      intro j hj
      refine ⟨trivial,?_⟩
      cases j with
      | dropped => cases hj
      | finished => exact hclose

end Connecting

theorem new_settles {home : Thread} : (Job.settles ⟨.reactorNew,home⟩).wp
    (yielding home (giving VclReactor.new .reactor)) Accounted (⟨home,0⟩,0) := by
  rw [wp_giving,VclReactor.new,Contract.wpe_bind,Contract.wpe_call]
  intro (vep : Int) _
  have hn : (Job.settles ⟨.reactorNew,home⟩).next (⟨home,0⟩,0) ⟨.epollCreate,vep⟩ =
      (⟨home,if vep < 0 then 0 else {handleOf vep}⟩,if vep < 0 then 0 else 1) := by
    have hc := Terms.opens_step (T := Job.terms ⟨.reactorNew,home⟩) (t := home) (K := 0)
      (e := ⟨.epollCreate,vep⟩) rfl rfl rfl rfl
    exact Prod.ext hc (zero_add _)
  have hfree (x : Vcl VclReactor) (hx : x.Calls Wakes) (K : Multiset Handle) :
      (Job.settles ⟨.reactorNew,home⟩).wpe x (fun a => Accounted {(home,.reactor a)})
        (fun _ => Accounted 0) (⟨home,K⟩,K.card) := by
    refine Contract.wpe_still _ (fun _ => wakes_step) hx ?_ ?_
    · intro a
      exact ⟨K,by simp [worth,Obj.owes],rfl⟩
    · intro e
      exact ⟨K,by simp [worth],rfl⟩
  refine ⟨⟨Terms.custody_guar (Multiset.zero_le _) Terms.none_permitted,trivial⟩,?_⟩
  have hcard : (if vep < 0 then 0 else 1) =
      (if vep < 0 then 0 else {handleOf vep} : Multiset Handle).card := by
    split_ifs <;> rfl
  rw [hn,hcard]
  apply hfree
  refine calls_bind (checkRc_calls _) (fun _ => ?_)
  refine calls_bind (calls_call .fd) (fun mqRaw => ?_)
  refine calls_bind (calls_rejectIf _) (fun _ => ?_)
  refine calls_bind (calls_call (.wrap _)) ?_
  intro x
  cases x with
  | ok _ => exact calls_pure _
  | error e => exact calls_err _

def Job.start (k : Job) : Holding Thread Handle × ℕ :=
  (⟨k.home,worth (k.api.takes.map (Prod.mk k.home))⟩,0)

theorem connect_settles {addr : SocketAddr} {source : Option SocketAddr} {timeout : Duration}
    {r : VclReactor} {home : Thread} :
    (Job.settles ⟨.streamConnect addr source timeout r,home⟩).wp
      (yielding home (giving (VclStream.connect addr source timeout r) .stream)) Accounted
      (⟨home,0⟩,0) := by
  have hc : (Job.terms ⟨.streamConnect addr source timeout r,home⟩).custody.wp
      (yielding home (giving (VclStream.connect addr source timeout r) .stream))
      (fun os s => (os = 0 ∧ s.owed = 0) ∨
        os.card = 1 ∧ ∃ orig, s.owed = worth os + {orig}) ⟨home,0⟩ := by
    rw [wp_giving]
    refine Terms.connect_wpe (.inl ⟨fun _ _ => rfl,fun h => nomatch h⟩) ?_ (fun _ => .inl ⟨rfl,rfl⟩)
    intro orig sh
    exact .inr ⟨rfl,orig,rfl⟩
  have hn : (strays ⟨.streamConnect addr source timeout r,home⟩).wp
      (yielding home (giving (VclStream.connect addr source timeout r) .stream))
      (fun os m => m = os.card) 0 := by
    rw [wp_giving]
    exact connect_strays
  apply Contract.wp_mono _ (Contract.wp_pair _ hc hn)
  rintro os ⟨s,m⟩ ⟨⟨rfl,ho⟩ | ⟨hcard,orig,ho⟩,hm⟩
  · refine ⟨0,?_,?_⟩
    · rw [add_zero]
      exact ho
    · exact hm.symm
  · refine ⟨{orig},ho,?_⟩
    rw [Multiset.card_singleton]
    exact (hm.trans hcard).symm

theorem streaming_keeps (k : Job) (hk : InScope k.api) :
    k.settles.wp (yielding k.home k.api.call) Accounted k.start := by
  obtain ⟨api,home⟩ := k
  cases api
  case reactorNew => exact new_settles
  case reactorClone r =>
    apply unstrayed_wp (fun _ => rfl)
    rw [wp_yielding]
    rfl
  case reactorDrop r =>
    apply unstrayed_wp (fun _ => rfl)
    rw [wp_yielding]
    rfl
  case tick r =>
    apply unstrayed_wp (fun _ => rfl)
    rw [Api.call,wp_serving]
    exact Terms.tick_wpe rfl (fun _ => rfl)
  case streamConnect addr source timeout r => exact connect_settles
  case streamConnectAsync addr source r timeout =>
    apply unstrayed_wp (fun _ => rfl)
    rw [Api.call,wp_giving]
    exact Terms.connectAsync_wpe (fun _ => rfl) (fun _ => rfl)
  case listenerAccept l =>
    apply unstrayed_wp (fun _ => rfl)
    rw [Api.call,wp_giving]
    refine Terms.accept_wpe ?_ (fun _ => rfl) (fun _ => rfl)
    exact .inr ⟨rfl,l.handle,⟨.listener l,by simp [Api.lends],by simp [Obj.handles]⟩,rfl⟩
  case streamDrop st =>
    apply unstrayed_wp (fun _ => rfl)
    rw [Api.call,wp_serving]
    have hdrop : (Job.terms ⟨.streamDrop st,home⟩).custody.wpe st.drop (fun _ s => s.owed = 0)
        (fun _ s => s.owed = 0) ⟨home,st.handle ::ₘ 0⟩ := Terms.drop_wpe rfl
    exact hdrop
  all_goals exact hk.elim

end Streaming

end VclRs
