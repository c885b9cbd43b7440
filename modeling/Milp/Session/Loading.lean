import Milp.Instance.Loading
import Milp.Session.Basic

/-!
# Loading an instance into a session

The edits of an instance, one after the other, up to the first that is refused. What has been loaded
until then stays.
-/

namespace Milp.Session

/-- **Carries out edits in order** and counts the rows that the cache had. -/
def editAll (s : Session) (cache : RowCache) : List (Except Error Edit) →
    Session × RowCache × Except Error Nat
  | [] => (s, cache, .ok 0)
  | .error e :: _ => (s, cache, .error e)
  | .ok e :: rest =>
    match s.edit cache e with
    | ((s', cache'), .error refusal) => (s', cache', .error refusal)
    | ((s', cache'), .ok hit) =>
      let (s'', cache'', hits) := editAll s' cache' rest
      (s'', cache'', hits.map fun n => n + (hit.getD false).toNat)

/-- **Loads an instance** in a mode and counts the rows that the cache had. -/
def load (s : Session) (cache : RowCache) (p : GivenInstance) (mode : Arg) :
    Session × RowCache × Except Error Nat :=
  match Mode.read mode with
  | .error e => (s, cache, .error e)
  | .ok mode =>
    match s.getInfinity with
    | .error e => (s, cache, .error e)
    | .ok infinity => s.editAll cache (p.edits infinity mode)

end Milp.Session
