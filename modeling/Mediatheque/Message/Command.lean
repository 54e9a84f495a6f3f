import Mediatheque.Media.Container
import Mediatheque.Media.Parameter

/-!
# Commands

What a client asks of the library. The dispatcher answers a command itself or
hands it to the backend that owns its target.

* `Command.targetId?`: the object a command is addressed to.
-/

namespace Mediatheque

/-- Tells which request an event answers. -/
structure Token where
  value : UInt64
deriving DecidableEq, Inhabited

/-- A token in messages for people. -/
def Token.display (t : Token) : String := "#" ++ toString t.value.toNat

inductive DeviceKind where
  | mediaServer
  | renderer
deriving DecidableEq, Inhabited

namespace DeviceKind

def all : List DeviceKind := [mediaServer, renderer]

def name : DeviceKind → String
  | mediaServer => "media-server"
  | renderer => "renderer"

def ofName? (s : String) : Option DeviceKind := all.find? (·.name = s)

end DeviceKind

/-- A media server or renderer found on the network. -/
structure RemoteDevice where
  uri : String
  label : String
  kind : DeviceKind
  protocol : Option String := none
deriving DecidableEq, Inhabited

/-- A path as the operating system has it: bytes, which need not be the UTF-8 of a text. -/
structure SystemPath where
  bytes : ByteArray
deriving Inhabited

namespace SystemPath

def ofText (s : String) : SystemPath := ⟨s.toUTF8⟩

/-- The text of a path, if it is one. -/
def text? (p : SystemPath) : Option String := String.fromUTF8? p.bytes

end SystemPath

/-- A removable volume, as the volume manager reports it. -/
structure Volume where
  label : String
  mediaClass : MediaClass
  mountPoint : Option SystemPath := none
deriving Inhabited

/-- What a client asks of the library, or the library of a backend. -/
inductive Command where
  /-- Asks for `count` children from `start` on, all of them when `count` is absent,
  in several events or in one. -/
  | browseChildren (token : Token) (id : String) (start : UInt64) (count : Option UInt64)
      (oneAnswer : Bool)
  | browseObject (token : Token) (id : String)
  /-- Replaces `delete` children from `index` on, or appends when there is no index. -/
  | spliceChildren (id : String) (index : Option UInt64) (delete : UInt64)
      (items : List Container)
  | sort (id : String)
  | rescan (token : Token)
  | saveLocal (id : String)
  | setParameter (context name : String) (value : ParameterValue)
  | remoteDeviceAdded (device : RemoteDevice)
  | remoteDeviceRemoved (uri : String)
  | volumeAdded (id : String) (volume : Volume)
  | volumeRemoved (id : String)
  | quit
deriving Inhabited

namespace Command

/-- The object that a command is addressed to. -/
def targetId? : Command → Option String
  | browseChildren _ id _ _ _ | browseObject _ id | spliceChildren id _ _ _ | sort id
  | saveLocal id => some id
  | _ => none

def isQuit : Command → Bool
  | quit => true
  | _ => false

/-- The name of a kind of command. -/
def typeName : Command → String
  | browseChildren .. => "browse-children"
  | browseObject .. => "browse-object"
  | spliceChildren .. => "splice-children"
  | sort .. => "sort"
  | rescan .. => "rescan"
  | saveLocal .. => "save-local"
  | setParameter .. => "set-parameter"
  | remoteDeviceAdded .. => "remote-device-added"
  | remoteDeviceRemoved .. => "remote-device-removed"
  | volumeAdded .. => "volume-added"
  | volumeRemoved .. => "volume-removed"
  | quit => "quit"

end Command

end Mediatheque
