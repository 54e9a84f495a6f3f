import Mediatheque.Message.Command

/-!
# Events

What the dispatcher publishes, and what a backend reports to it. An event with a
token answers one request; the others tell every client of a change.

* `Event.token?`: the request an event answers;
* `Event.completes`: whether an event is the last answer to a request.
-/

namespace Mediatheque

/-- What the dispatcher tells its clients. -/
inductive Event where
  /-- A page of children that answers a request, or else a change of the children. -/
  | spliceChildren (token : Option Token) (id : String) (last : Bool) (index delete : UInt64)
      (items : List Container)
  | object (token : Token) (object : Container)
  | notFound (token : Option Token) (id : String)
  | objectChanged (id : String) (fields : Dictionary Json)
  | creationDone
  | rescanDone (token : Token)
  | backendAdded (device : RemoteDevice)
  | backendRemoved (uri : String)
  | parameterChanged (context name : String) (value : ParameterValue)
  | backendError (backend message : String)
deriving Inhabited

namespace Event

/-- The request that an event answers. -/
def token? : Event → Option Token
  | spliceChildren token _ _ _ _ _ | notFound token _ => token
  | object token _ | rescanDone token => some token
  | _ => none

/-- Whether an event is the last one that answers a request. -/
def completes (token : Token) : Event → Bool
  | spliceChildren (some t) _ last _ _ _ => t = token ∧ last
  | e => e.token? = some token

end Event

/-- What a backend tells the dispatcher. -/
inductive BackendEvent where
  /-- An event for the clients. -/
  | publish (event : Event)
  | addRootContainer (container : Container)
  | deleteRootContainer (id : String)
  | exportMediaDir (path : String)
  | unexportMediaDir (path : String)
  | rescanComplete
  | creationDone
  /-- A setting of the backend has changed by itself. -/
  | parameterChanged (name : String) (value : ParameterValue)
deriving Inhabited

end Mediatheque
