import Mediatheque.Disk.Basic
import Mediatheque.Text.Duration

/-!
# Errors

Why the dispatcher refuses a command, and why a database does not open. Each cause
has one message for people.
-/

namespace Mediatheque

/-- Why the dispatcher refuses a command. -/
inductive DispatchError where
  | notFound (id : String)
  | rescanPending
  | unknownBackend (name : String)
  | unknownParameter (context name : String)
deriving DecidableEq, Inhabited

/-- The message of an error for people. -/
def DispatchError.message : DispatchError → String
  | notFound id => "object " ++ id ++ " not found"
  | rescanPending => "rescan already in process"
  | unknownBackend name => "no backend named " ++ name
  | unknownParameter context name => "context " ++ context ++ " has no parameter " ++ name

/-- Why a database does not open, or its settings are not read or written. -/
inductive DatabaseError where
  | alreadyExists (path : String)
  | notFound (path : String)
  | locked (path : String)
  | disk (path : String) (cause : DiskError)
  /-- The settings file holds no registry. -/
  | unreadableSettings (path : String)
  /-- The backends did not finish within a number of milliseconds. -/
  | creationTimeout (milliseconds : Nat)
deriving DecidableEq, Inhabited

/-- The message of an error for people. -/
def DatabaseError.message : DatabaseError → String
  | alreadyExists path => "won't create database: " ++ path ++ " already exists"
  | notFound path => "database not found at " ++ path
  | locked path => "database " ++ path ++ " is locked by another process"
  | disk path cause => "I/O error on " ++ path ++ ": " ++ cause.message
  | unreadableSettings path => "cannot parse " ++ path
  | creationTimeout ms => "backends did not finish creating within " ++ durationText ms

end Mediatheque
