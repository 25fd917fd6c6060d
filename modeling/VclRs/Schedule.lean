import VclRs.Model.Dns

namespace VclRs

open Interaction

abbrev host : Platform where
  endian := .little
  retvalStr _ := ""

def obliging : (c : Call) → Reply c
  | .initializedSwap _ => false
  | .initializedStore _ => ()
  | .appCreate _ => ()
  | .appCreated => (0 : Int)
  | .appDestroy => ()
  | .appDestroyed => ()
  | .workerRegister => (0 : Int)
  | .workerIndex => (0 : Int)
  | .workerUnregister => ()
  | .sessionCreate _ _ => (1 : Int)
  | .sessionClose _ => (0 : Int)
  | .sessionShutdown _ _ => (0 : Int)
  | .sessionBind _ _ => (0 : Int)
  | .sessionListen _ _ => (0 : Int)
  | .sessionAccept _ => ((3 : Int),.default)
  | .sessionConnect _ _ => (0 : Int)
  | .sessionRead _ _ => ((0 : Int),[])
  | .sessionWrite _ buf => (buf.length : Int)
  | .sessionSendto _ buf _ => (buf.length : Int)
  | .sessionRecvfrom _ _ => ((0 : Int),[],.default)
  | .sessionAttr _ _ => ((0 : Int),.default)
  | .epollCreate => (2 : Int)
  | .epollCtl _ _ _ _ => (0 : Int)
  | .epollWait _ _ _ => ((0 : Int),[])
  | .mqEpollFd => (4 : Int)
  | .asyncFd _ => .ok ()
  | .instantNow => (0 : ℕ)
  | .sleep _ => ()
  | .genRange low _ => low
  | .registeredGet => true
  | .registeredSet => ()
  | .registerLock => ()
  | .registerUnlock => ()
  | .waitersEntry _ _ => (0 : ℕ)
  | .waitersRemove _ _ => ()
  | .notifyOne _ _ => ()
  | .notifyEvery _ => ()
  | .select _ _ _ => ((0 : ℕ),.notified)
  | .recheck _ => ((0 : ℕ),.notified)
  | .clearReady _ => ()
  | .waitPoll _ _ => .ready (.ok ())
  | .spawnBlocking => .ok 1
  | .joinBlocking => .finished
  | .taskSpawn => (0 : ℕ)
  | .taskJoin _ => .ok ()
  | .barrierWait => ()

end VclRs
