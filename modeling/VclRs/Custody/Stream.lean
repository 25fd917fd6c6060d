import VclRs.Custody.Terms

namespace VclRs

open Interaction Fallible

namespace Terms

variable {H : Type} [DecidableEq H] {T : Terms H} {s : Holding Thread H} {α : Type}
variable {Q : α → Holding Thread H → Prop} {E : Stop → Holding Thread H → Prop}
variable {t : Thread} {K : Multiset H} {sh : Handle}

theorem configures_wpe {x : Vcl α} (hm : T.ledger.May s (T.key s.site sh))
    (hx : x.Calls (Configures sh)) (hQ : ∀ a, Q a s) (hE : ∀ e, E e s) :
    T.custody.wpe x Q E s :=
  permits_wpe (Prog.calls_mono (fun _ => configures_permits hm) hx) hQ hE

theorem waits_wpe {x : Vcl α} {vep : Handle} (hx : x.Calls (Waits vep sh)) (hQ : ∀ a, Q a s)
    (hE : ∀ e, E e s) : T.custody.wpe x Q E s :=
  permits_wpe (Prog.calls_mono (fun _ => waits_permits) hx) hQ hE

theorem tick_wpe {r : VclReactor} {Q : Unit → Holding Thread H → Prop} (hQ : Q () s)
    (hE : ∀ e, E e s) : T.custody.wpe r.tick Q E s := by
  have hcalls : r.tick.Calls (T.Permits s) := by
    exact tick_calls none_permitted (fun _ => none_permitted) none_permitted
  exact permits_wpe hcalls (fun _ => hQ) hE

theorem drop_wpe {r : VclReactor} {Q : Unit → Holding Thread H → Prop} (hQ : Q () ⟨t,K⟩) :
    T.custody.wpe (do
      r.deregister sh
      dropSession sh) Q E ⟨t,T.key t sh ::ₘ K⟩ := by
  simp only [VclReactor.deregister,Contract.wpe_bind,Contract.wpe_pure]
  apply call_wpe
  · exact none_permitted
  · intro _
    apply call_wpe
    · intro x hx
      cases hx
      exact may_head _
    · intro _
      exact dropSession_wpe hQ

theorem switch_step {e : Ev} (ho : obtained e = 0) (hr : released e = 0) (hd : refused e = 0)
    (hs : subject e.op = none) :
    T.custody.guar s e ∧ T.custody.next s e = ⟨resumed T.home s.site e,s.owed⟩ := by
  refine ⟨custody_guar ?_ ?_,?_⟩
  · rw [hr,Multiset.map_zero]
    exact Multiset.zero_le _
  · intro x hx
    rw [hs] at hx
    cases hx
  · rw [custody_next,ho,hr,hd,ite_self,Multiset.map_zero,add_zero,Multiset.map_zero,add_zero,
      tsub_zero]

theorem join_wpe {r : Except Stop α} (hok : ∀ a, r = .ok a → Q a ⟨T.home,s.owed⟩)
    (herr : ∀ e, r = .error e → E e ⟨T.home,s.owed⟩)
    (hdrop : T.rely ⟨.joinBlocking,.dropped⟩ → E .dropped ⟨T.home,s.owed⟩) :
    T.custody.wpe (join r) Q E s := by
  rw [join,Contract.wpe_bind]
  intro j hrely
  obtain ⟨hg,hn⟩ : T.custody.guar s ⟨.joinBlocking,j⟩ ∧
      T.custody.next s ⟨.joinBlocking,j⟩ = ⟨T.home,s.owed⟩ := switch_step rfl rfl rfl rfl
  refine ⟨hg,?_⟩
  rw [hn]
  cases j with
  | dropped => exact hdrop hrely
  | finished =>
    cases r with
    | ok a => exact hok a rfl
    | error e => exact herr e rfl

theorem spawnBlocking_wpe {closure : Vcl α} (hfail : ∀ e, E e ⟨T.home,K⟩)
    (hrun : ∀ pool, T.custody.wpe closure
      (fun a s' => Q a ⟨T.home,s'.owed⟩ ∧
        (T.rely ⟨.joinBlocking,.dropped⟩ → E .dropped ⟨T.home,s'.owed⟩))
      (fun e s' => E e ⟨T.home,s'.owed⟩ ∧ E .dropped ⟨T.home,s'.owed⟩) ⟨pool,K⟩) :
    T.custody.wpe (spawnBlocking closure) Q E ⟨T.home,K⟩ := by
  rw [spawnBlocking,Contract.wpe_bind]
  intro r _
  obtain ⟨hg,hn⟩ : T.custody.guar ⟨T.home,K⟩ ⟨.spawnBlocking,r⟩ ∧
      T.custody.next ⟨T.home,K⟩ ⟨.spawnBlocking,r⟩ =
        ⟨resumed T.home T.home ⟨.spawnBlocking,r⟩,K⟩ := switch_step rfl rfl rfl rfl
  refine ⟨hg,?_⟩
  rw [hn]
  cases r with
  | error e => exact hfail _
  | ok pool =>
    change T.custody.wpe (closure.handle join) Q E ⟨pool,K⟩
    rw [Contract.wpe_handle]
    apply T.custody.wpe_mono (hrun pool)
    · rintro a s' ⟨hq,hd⟩
      apply join_wpe
      · rintro _ ⟨⟩
        exact hq
      · rintro _ ⟨⟩
      · exact hd
    · rintro e s' ⟨he,hd⟩
      apply join_wpe
      · rintro _ ⟨⟩
      · rintro _ ⟨⟩
        exact he
      · intro _
        exact hd

section Streams

variable [Platform]

theorem setNodelay_wpe {Q : Except VclError Unit → Holding Thread H → Prop}
    (hm : T.ledger.May s (T.key s.site sh)) (hQ : ∀ r, Q r s) :
    T.custody.wpe (attempt (setNodelay sh)) Q E s := by
  rw [wpe_attempt,setNodelay,Contract.wpe_bind]
  apply call_wpe
  · exact configures_permits hm (.attr _ (by simp))
  · intro r
    apply checkRc_wpe
    · intro _
      exact hQ _
    · intro _
      exact hQ _

theorem connectAsync_wpe {addr : SocketAddr} {source : Option SocketAddr} {r : VclReactor}
    {timeout : Duration} {Q : VclStream → Holding Thread H → Prop}
    (hok : ∀ sh, Q ⟨sh,r⟩ ⟨t,T.key t sh ::ₘ K⟩) (herr : ∀ e, E e ⟨t,K⟩) :
    T.custody.wpe (VclStream.connectAsync addr source r timeout) Q E ⟨t,K⟩ := by
  rw [VclStream.connectAsync,Contract.wpe_bind]
  refine registerWorkerThread_wpe ?_ herr
  rw [Contract.wpe_bind]
  refine createTcp_wpe ?_ herr
  intro sh
  have hm : T.ledger.May ⟨t,T.key t sh ::ₘ K⟩ (T.key t sh) := may_head _
  have hstop (e : Stop) : (⟨t,T.key t sh ::ₘ K⟩ : Holding Thread H) = ⟨t,T.key t sh ::ₘ K⟩ ∧
      E e ⟨t,K⟩ := ⟨rfl,herr e⟩
  refine owning_wpe (t := t) (K := K) ?_
  simp only [Contract.wpe_bind,Contract.wpe_pure]
  apply setNodelay_wpe hm
  intro _
  refine configures_wpe hm (bindSource_calls source) ?_ hstop
  intro _
  refine register_wpe hm ?_ hstop
  refine configures_wpe hm (startConnect_calls addr) ?_ hstop
  intro _
  refine waits_wpe (waitWritable_calls timeout) ?_ hstop
  intro _
  exact hok sh

theorem fromAccepted_wpe {r : VclReactor} {Q : VclStream → Holding Thread H → Prop}
    (hok : Q ⟨sh,r⟩ ⟨t,T.key t sh ::ₘ K⟩) (herr : ∀ e, E e ⟨t,K⟩) :
    T.custody.wpe (VclStream.fromAccepted sh r) Q E ⟨t,T.key t sh ::ₘ K⟩ := by
  have hm : T.ledger.May ⟨t,T.key t sh ::ₘ K⟩ (T.key t sh) := may_head _
  refine owning_wpe (t := t) (K := K) ?_
  simp only [Contract.wpe_bind,Contract.wpe_pure]
  refine configures_wpe hm setNonblocking_calls ?_ (fun e => ⟨rfl,herr e⟩)
  intro _
  apply setNodelay_wpe hm
  intro _
  exact hok

theorem sessionAccept_wpe {Q : Handle × SocketAddr → Holding Thread H → Prop}
    (hm : T.ledger.May ⟨t,K⟩ (T.key t sh)) (hok : ∀ x, Q x ⟨t,T.key t x.1 ::ₘ K⟩)
    (herr : ∀ e, E e ⟨t,K⟩) : T.custody.wpe (sessionAccept sh) Q E ⟨t,K⟩ := by
  rw [sessionAccept,Contract.wpe_bind]
  rintro ⟨rc,ep⟩ _
  have hg : T.custody.guar ⟨t,K⟩ ⟨.sessionAccept sh,(rc,ep)⟩ := by
    refine custody_guar (Multiset.zero_le _) ?_
    intro x hx
    cases hx
    exact hm
  have hn : T.custody.next ⟨t,K⟩ ⟨.sessionAccept sh,(rc,ep)⟩ =
      ⟨t,if rc < 0 then K else T.key t (handleOf rc) ::ₘ K⟩ := opens_step rfl rfl rfl rfl
  refine ⟨hg,?_⟩
  rw [hn]
  change T.custody.wpe (do
    checkRc rc
    pure (handleOf rc,addrFromEndpoint ep)) Q E _
  rw [Contract.wpe_bind]
  apply checkRc_wpe <;> intro hneg
  · rw [if_neg hneg]
    exact hok _
  · rw [if_pos hneg]
    exact herr _

theorem accept_wpe {l : VclListener} {Q : VclStream × SocketAddr → Holding Thread H → Prop}
    (hm : T.ledger.May ⟨t,K⟩ (T.key t l.handle))
    (hok : ∀ x, Q x ⟨t,T.key t x.1.handle ::ₘ K⟩) (herr : ∀ e, E e ⟨t,K⟩) :
    T.custody.wpe l.accept Q E ⟨t,K⟩ := by
  refine T.custody.wpe_loop (fun _ s => s = ⟨t,K⟩) ?_ rfl
  rintro _ _ rfl
  simp only [Contract.wpe_bind,wpe_attempt]
  apply sessionAccept_wpe hm
  · rintro ⟨client,peer⟩
    refine owning_wpe (t := t) (K := K) ?_
    refine register_wpe (may_head _) ?_ (fun e => ⟨rfl,herr e⟩)
    exact fromAccepted_wpe (hok (⟨client,l.reactor⟩,peer)) herr
  · intro e
    cases e with
    | dropped => exact herr _
    | err e =>
      simp only [Contract.wpe_ite,Contract.wpe_bind,wpe_err]
      split_ifs with hwb
      · refine waits_wpe (calls_attempt (waitReadable_calls (secs 300))) ?_ herr
        intro x
        cases x with
        | ok _ => rfl
        | error e' =>
          simp only [Contract.wpe_ite,Contract.wpe_pure,wpe_err]
          split_ifs with hto
          · rfl
          · exact herr _
      · exact herr _

theorem blockingConnect_wpe {addr : SocketAddr} {Q : Handle → Holding Thread H → Prop}
    (hok : ∀ sh rc, ¬ rc < 0 → T.rely ⟨.sessionConnect sh (endpointIntoBuf addr zeroed),rc⟩ →
      Q sh ⟨t,T.key t sh ::ₘ K⟩) (herr : ∀ e, E e ⟨t,K⟩) :
    T.custody.wpe (VclStream.blockingConnect addr) Q E ⟨t,K⟩ := by
  rw [VclStream.blockingConnect,Contract.wpe_bind]
  refine registerWorkerThread_wpe ?_ herr
  rw [Contract.wpe_bind]
  apply create_wpe
  intro rc
  rw [Contract.wpe_bind]
  apply checkRc_wpe <;> intro hneg
  · rw [if_neg hneg,Contract.wpe_bind]
    intro (rc' : Int) hrely
    have hp : T.Permits ⟨t,T.key t (handleOf rc) ::ₘ K⟩
        (.sessionConnect (handleOf rc) (endpointIntoBuf addr zeroed)) := by
      intro x hx
      cases hx
      exact may_head _
    obtain ⟨hg,hn⟩ := permits_step
      (e := ⟨.sessionConnect (handleOf rc) (endpointIntoBuf addr zeroed),rc'⟩) hp
    refine ⟨hg,?_⟩
    rw [hn]
    change T.custody.wpe (if rc' < 0 then do
      let _ ← vppcomSessionClose (handleOf rc)
      err (fromRc rc') else pure (handleOf rc)) Q E _
    rw [Contract.wpe_ite]
    split_ifs with hneg'
    · rw [Contract.wpe_bind]
      exact close_wpe (fun _ => herr _)
    · exact hok _ rc' hneg' hrely
  · rw [if_pos hneg]
    exact herr _

theorem connect_wpe {addr : SocketAddr} {source : Option SocketAddr} {timeout : Duration}
    {r : VclReactor} {Q : VclStream → Holding Thread H → Prop}
    (hkey : (∀ t sh, T.key t sh = T.key T.home sh) ∧
        (T.rely ⟨.joinBlocking,.dropped⟩ → ∀ sh, E .dropped ⟨T.home,T.key T.home sh ::ₘ K⟩) ∨
      ∀ sh ep rc, T.rely ⟨.sessionConnect sh ep,rc⟩ → rc < 0)
    (hok : ∀ orig sh, Q ⟨sh,r⟩ ⟨T.home,T.key T.home sh ::ₘ T.key T.home orig ::ₘ K⟩)
    (herr : ∀ e, E e ⟨T.home,K⟩) :
    T.custody.wpe (VclStream.connect addr source timeout r) Q E ⟨T.home,K⟩ := by
  rw [VclStream.connect,Contract.wpe_bind]
  refine registerWorkerThread_wpe ?_ herr
  rw [Contract.wpe_bind]
  refine createTcp_wpe ?_ herr
  intro orig
  have hm : T.ledger.May ⟨T.home,T.key T.home orig ::ₘ K⟩ (T.key T.home orig) := may_head _
  have hstop (e : Stop) : T.custody.wpe (dropSession orig) (fun _ => E e) E
      ⟨T.home,T.key T.home orig ::ₘ K⟩ := dropSession_wpe (herr e)
  rw [Contract.wpe_bind,owning,Contract.wpe_onFail]
  simp only [Contract.wpe_bind,Contract.wpe_pure]
  apply setNodelay_wpe hm
  intro _
  refine configures_wpe hm (bindSource_calls source) ?_ hstop
  intro _
  apply spawnBlocking_wpe hstop
  intro pool
  apply blockingConnect_wpe
  · intro sh rc hrc hrely
    rcases hkey with ⟨hkey,hleak⟩ | hkey
    · simp only [hkey pool]
      have hm' : T.ledger.May ⟨T.home,T.key T.home sh ::ₘ T.key T.home orig ::ₘ K⟩
          (T.key T.home sh) := may_head _
      constructor
      · apply setNodelay_wpe hm'
        intro _
        exact hok orig sh
      · intro hd
        rw [Multiset.cons_swap]
        exact dropSession_wpe (hleak hd sh)
    · exact absurd (hkey _ _ _ hrely) hrc
  · intro e
    exact ⟨hstop e,hstop .dropped⟩

end Streams

end Terms

end VclRs
