import PageQuery.Error
import PageQuery.Sql.Node

/-!
# Templates

A template is static text with holes.  It has one more segment of text than it
has holes, and every hole is filled with a fragment.
-/

namespace PageQuery.Sql

/-- The segments with the fragments between them. -/
def interleave : List String → List Fragment → Fragment
  | [], _ => []
  | segment :: segments, [] => text segment ++ interleave segments []
  | segment :: segments, hole :: holes => text segment ++ hole ++ interleave segments holes

def template (segments : List String) (holes : List Fragment) : Except Error Fragment :=
  let expected := segments.length - 1
  if segments = [] then .error (.untrustedInterpolation .noSegments)
  else if expected < holes.length then .error (.untrustedInterpolation (.extraValue expected))
  else if holes.length < expected then
    .error (.untrustedInterpolation (.emptyHole holes.length))
  else .ok (interleave segments holes)

end PageQuery.Sql
