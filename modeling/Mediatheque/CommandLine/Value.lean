import Mediatheque.Json.Reader
import Mediatheque.Media.Parameter.Json

/-!
# Values on the command line

The value of a setting is given as one argument. JSON for a truth value, a number, a
text or a list of texts gives that value; every other argument is taken as text, as
it stands.
-/

namespace Mediatheque

/-- The value that an argument gives. -/
def ParameterValue.ofArgument (argument : String) : ParameterValue :=
  ((Json.read? argument).bind ofJson?).getD (string argument)

end Mediatheque
