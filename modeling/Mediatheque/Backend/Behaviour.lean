import Mediatheque.Backend.Basic
import Mediatheque.Cache.ObjectCache
import Mediatheque.Catalog.Basic

/-!
# Behaviour of backends

What a database asks of its backends. A backend is a state that reacts to what it is
asked, with a new state and with reports to the dispatcher. A reaction without a new
state is a failure, of which the backend does not recover.
-/

namespace Mediatheque

/-- What a backend knows while it works. -/
structure BackendContext where
  /-- The directory of the database. -/
  dataDir : String
  /-- The objects that the backends have cached. -/
  cache : ObjectCache
  /-- The time in milliseconds. -/
  now : Nat
deriving Inhabited

/-- What a backend does when it is asked. -/
structure Reaction (σ : Type) where
  /-- The state to go on with, if there is one. -/
  next : Option σ
  reports : List BackendEvent := []
  cache : ObjectCache

/-- The behaviour of the backends with states in a type. -/
class Backend (σ : Type) where
  info : σ → BackendInfo
  /-- Claims top-level containers; the flag tells that the database is new. -/
  create : σ → String → Bool → Catalog → σ × Catalog
  /-- Does a piece of its own work. -/
  ping : σ → BackendContext → Reaction σ
  handle : σ → Command → BackendContext → Reaction σ
  /-- Ends its work. -/
  stop : σ → σ
  /-- Gives up what it holds, after all backends have ended their work. -/
  destroy : σ → σ

namespace Catalog

/-- Hands the top-level container of a class to a backend, and tells its position. -/
def claim (c : Catalog) (backend : String) (mediaClass : MediaClass) : Catalog × Nat :=
  let (c, position) := c.ensure mediaClass
  (c.modifyChild position fun d => { d with backend := some backend }, position)

end Catalog

end Mediatheque
