import VclRs.Interaction.Contract
import VclRs.Model.Address

namespace VclRs

open Interaction

abbrev Handle := UInt32
abbrev Thread := ℕ
abbrev NotifyId := ℕ
abbrev Instant := ℕ
abbrev Duration := ℕ

def secs (n : ℕ) : Duration := n * 1000000000
def millis (n : ℕ) : Duration := n * 1000000

def asU32 (n : ℕ) : ℕ := n % 4294967296

def handleOf (rc : Int) : Handle := .ofNat rc.toNat

inductive Proto where
  | tcp
  | udp
deriving DecidableEq, Repr

inductive Attr where
  | getLclAddr
  | getPeerAddr
  | setFlags (flags : UInt32)
  | setTcpNodelay (val : UInt32)
deriving DecidableEq, Repr

inductive Ctl where
  | add
  | del
deriving DecidableEq, Repr

structure EpollEvent where
  events : UInt32
  data : UInt64
deriving DecidableEq, Repr

def epollin : UInt32 := 0x001
def epollout : UInt32 := 0x004
def epollhup : UInt32 := 0x010
def epollrdhup : UInt32 := 0x2000
def epollet : UInt32 := (1 : UInt32) <<< 31
def oNonblock : UInt32 := 2048
def shutWr : Int := 1

inductive Selected where
  | readable
  | readFailed (e : IoError)
  | notified
  | elapsed
  | dropped
deriving DecidableEq, Repr

inductive Rechecked where
  | notified
  | elapsed
  | dropped
deriving DecidableEq, Repr

inductive Joined where
  | finished
  | dropped
deriving DecidableEq, Repr

inductive Poll (α : Type) where
  | pending
  | ready (a : α)

inductive Call where
  | initializedSwap (v : Bool)
  | initializedStore (v : Bool)
  | appCreate (name : List UInt8)
  | appCreated
  | appDestroy
  | appDestroyed
  | workerRegister
  | workerIndex
  | workerUnregister
  | sessionCreate (proto : Proto) (nonblocking : Bool)
  | sessionClose (sh : Handle)
  | sessionShutdown (sh : Handle) (how : Int)
  | sessionBind (sh : Handle) (ep : Endpt)
  | sessionListen (sh : Handle) (qLen : ℕ)
  | sessionAccept (sh : Handle)
  | sessionConnect (sh : Handle) (ep : Endpt)
  | sessionRead (sh : Handle) (n : ℕ)
  | sessionWrite (sh : Handle) (buf : List UInt8)
  | sessionSendto (sh : Handle) (buf : List UInt8) (ep : Endpt)
  | sessionRecvfrom (sh : Handle) (n : ℕ)
  | sessionAttr (sh : Handle) (op : Attr)
  | epollCreate
  | epollCtl (vep : Handle) (op : Ctl) (sh : Handle) (ev : Option EpollEvent)
  | epollWait (vep : Handle) (maxevents : ℕ) (ms : ℕ)
  | mqEpollFd
  | asyncFd (fd : Int)
  | instantNow
  | sleep (d : Duration)
  | genRange (low high : ℕ)
  | registeredGet
  | registeredSet
  | registerLock
  | registerUnlock
  | waitersEntry (vep sh : Handle)
  | waitersRemove (vep sh : Handle)
  | notifyOne (vep sh : Handle)
  | notifyEvery (vep : Handle)
  | select (vep : Handle) (notify : NotifyId) (deadline : Instant)
  | recheck (notify : NotifyId)
  | clearReady (vep : Handle)
  | waitPoll (sh : Handle) (cx : ℕ)
  | spawnBlocking
  | joinBlocking
  | taskSpawn
  | taskJoin (task : ℕ)
  | barrierWait

abbrev Reply : Call → Type
  | .initializedSwap _ => Bool
  | .initializedStore _ => Unit
  | .appCreate _ => Unit
  | .appCreated => Int
  | .appDestroy => Unit
  | .appDestroyed => Unit
  | .workerRegister => Int
  | .workerIndex => Int
  | .workerUnregister => Unit
  | .sessionCreate _ _ => Int
  | .sessionClose _ => Int
  | .sessionShutdown _ _ => Int
  | .sessionBind _ _ => Int
  | .sessionListen _ _ => Int
  | .sessionAccept _ => Int × Endpt
  | .sessionConnect _ _ => Int
  | .sessionRead _ _ => Int × List UInt8
  | .sessionWrite _ _ => Int
  | .sessionSendto _ _ _ => Int
  | .sessionRecvfrom _ _ => Int × List UInt8 × Endpt
  | .sessionAttr _ _ => Int × Endpt
  | .epollCreate => Int
  | .epollCtl _ _ _ _ => Int
  | .epollWait _ _ _ => Int × List EpollEvent
  | .mqEpollFd => Int
  | .asyncFd _ => Except IoError Unit
  | .instantNow => Instant
  | .sleep _ => Unit
  | .genRange _ _ => ℕ
  | .registeredGet => Bool
  | .registeredSet => Unit
  | .registerLock => Unit
  | .registerUnlock => Unit
  | .waitersEntry _ _ => NotifyId
  | .waitersRemove _ _ => Unit
  | .notifyOne _ _ => Unit
  | .notifyEvery _ => Unit
  | .select _ _ _ => Instant × Selected
  | .recheck _ => Instant × Rechecked
  | .clearReady _ => Unit
  | .waitPoll _ _ => Poll (Except VclError Unit)
  | .spawnBlocking => Except String Thread
  | .joinBlocking => Joined
  | .taskSpawn => ℕ
  | .taskJoin _ => Except String Unit
  | .barrierWait => Unit

abbrev Ev := Event Call Reply
abbrev Vcl := Fallible Call Reply Stop

def err {α : Type} (e : VclError) : Vcl α := Fallible.fail (.err e)

def rejectIf (c : Prop) [Decidable c] (e : VclError) : Vcl Unit := if c then err e else pure ()

def attempt {α : Type} (x : Vcl α) : Vcl (Except VclError α) :=
  x.handle (fun
    | .ok a => pure (.ok a)
    | .error (.err e) => pure (.error e)
    | .error .dropped => Fallible.fail .dropped)

abbrev ffi (c : Call) : Vcl (Reply c) := Fallible.call c

def vppcomAppCreate (name : List UInt8) : Vcl Int := do
  ffi (.appCreate name)
  ffi .appCreated

def vppcomAppDestroy : Vcl Unit := do
  ffi .appDestroy
  ffi .appDestroyed

abbrev vppcomWorkerRegister : Vcl Int := ffi .workerRegister
abbrev vppcomWorkerIndex : Vcl Int := ffi .workerIndex
abbrev vppcomWorkerUnregister : Vcl Unit := ffi .workerUnregister
abbrev vppcomSessionCreate (proto : Proto) (nonblocking : Bool) : Vcl Int :=
  ffi (.sessionCreate proto nonblocking)
abbrev vppcomSessionClose (sh : Handle) : Vcl Int := ffi (.sessionClose sh)
abbrev vppcomSessionShutdown (sh : Handle) (how : Int) : Vcl Int :=
  ffi (.sessionShutdown sh how)
abbrev vppcomSessionBind (sh : Handle) (ep : Endpt) : Vcl Int := ffi (.sessionBind sh ep)
abbrev vppcomSessionListen (sh : Handle) (qLen : ℕ) : Vcl Int :=
  ffi (.sessionListen sh qLen)
abbrev vppcomSessionAccept (sh : Handle) : Vcl (Int × Endpt) := ffi (.sessionAccept sh)
abbrev vppcomSessionConnect (sh : Handle) (ep : Endpt) : Vcl Int :=
  ffi (.sessionConnect sh ep)
abbrev vppcomSessionRead (sh : Handle) (n : ℕ) : Vcl (Int × List UInt8) :=
  ffi (.sessionRead sh n)
abbrev vppcomSessionWrite (sh : Handle) (buf : List UInt8) : Vcl Int :=
  ffi (.sessionWrite sh buf)
abbrev vppcomSessionSendto (sh : Handle) (buf : List UInt8) (ep : Endpt) : Vcl Int :=
  ffi (.sessionSendto sh buf ep)
abbrev vppcomSessionRecvfrom (sh : Handle) (n : ℕ) : Vcl (Int × List UInt8 × Endpt) :=
  ffi (.sessionRecvfrom sh n)
abbrev vppcomSessionAttr (sh : Handle) (op : Attr) : Vcl (Int × Endpt) :=
  ffi (.sessionAttr sh op)
abbrev vppcomEpollCreate : Vcl Int := ffi .epollCreate
abbrev vppcomEpollCtl (vep : Handle) (op : Ctl) (sh : Handle) (ev : Option EpollEvent) : Vcl Int :=
  ffi (.epollCtl vep op sh ev)
abbrev vppcomEpollWait (vep : Handle) (maxevents ms : ℕ) : Vcl (Int × List EpollEvent) :=
  ffi (.epollWait vep maxevents ms)
abbrev vppcomMqEpollFd : Vcl Int := ffi .mqEpollFd
abbrev instantNow : Vcl Instant := ffi .instantNow
abbrev genRange (low high : ℕ) : Vcl ℕ := ffi (.genRange low high)

section Rules

variable {σ α : Type} (C : Contract Call Reply σ)

@[simp] theorem wpe_err {e : VclError} {Q : α → σ → Prop} {E : Stop → σ → Prop} :
    C.wpe (err e : Vcl α) Q E = E (.err e) := rfl

@[simp] theorem wpe_attempt {x : Vcl α} {Q : Except VclError α → σ → Prop} {E : Stop → σ → Prop} :
    C.wpe (attempt x) Q E = C.wpe x (fun a => Q (.ok a)) (fun
      | .err e => Q (.error e)
      | .dropped => E .dropped) := by
  rw [attempt,C.wpe_handle]
  congr 1
  funext e
  cases e <;> rfl

@[simp] theorem wpe_rejectIf {c : Prop} [Decidable c] {e : VclError} {Q : Unit → σ → Prop}
    {E : Stop → σ → Prop} :
    C.wpe (rejectIf c e) Q E = if c then E (.err e) else Q () := by
  simp [rejectIf]

theorem calls_rejectIf {P : Call → Prop} {c : Prop} [Decidable c] (e : VclError) :
    (rejectIf c e).Calls P := Fallible.calls_ite trivial trivial

theorem calls_err {P : Call → Prop} (e : VclError) : (err e : Vcl α).Calls P := trivial

theorem calls_attempt {P : Call → Prop} {x : Vcl α} (h : x.Calls P) : (attempt x).Calls P := by
  refine Fallible.calls_handle h ?_
  intro r
  match r with
  | .ok a => trivial
  | .error (.err e) => trivial
  | .error .dropped => trivial

end Rules

end VclRs
