import Gauge.Failure

/-!
# Cancellation tokens

A token is a flag with a reason, below the tokens that it was made from.  Cancelling a token reaches
all tokens below it.  The flag is raised after the reason is recorded, and the first reason of a
token stays.

## Main definitions

* `Token` — a place in the tree: its own cell and those above it.
* `Tokens` — the cells of all tokens.
* `Tokens.record`, `Tokens.raise`, `Tokens.cancel` — the two steps of cancelling, and both.
* `Tokens.isCancelled`, `Tokens.reason?` — what a token sees.
-/

namespace Gauge

/-- A token: its cell and the cells above it, nearest first. -/
structure Token where
  cell : Nat
  above : List Nat
  deriving DecidableEq

/-- The cells that a token looks at. -/
def Token.path (t : Token) : List Nat := t.cell :: t.above

/-- The state of one token. -/
structure TokenCell where
  raised : Bool := false
  reason : Option Scope := none
  deriving DecidableEq

/-- The cells of all tokens. -/
structure Tokens where
  cells : Array TokenCell := #[]
  deriving DecidableEq

namespace Tokens

def cell (s : Tokens) (i : Nat) : TokenCell := s.cells[i]?.getD {}

/-- A new token without tokens above it. -/
def root (s : Tokens) : Token × Tokens :=
  ({ cell := s.cells.size, above := [] }, { cells := s.cells.push {} })

/-- A new token below another one. -/
def child (s : Tokens) (t : Token) : Token × Tokens :=
  ({ cell := s.cells.size, above := t.path }, { cells := s.cells.push {} })

/-- Whether a token or one above it has its flag raised. -/
def isCancelled (s : Tokens) (t : Token) : Bool := t.path.any fun i => (s.cell i).raised

/-- The reason nearest to a token. -/
def reason? (s : Tokens) (t : Token) : Option Scope := t.path.findSome? fun i => (s.cell i).reason

/-- The first step of cancelling: records the reason, unless there is one. -/
def record (s : Tokens) (t : Token) (scope : Scope) : Tokens where
  cells := s.cells.modify t.cell fun c => { c with reason := c.reason.or (some scope) }

/-- The second step of cancelling: raises the flag. -/
def raise (s : Tokens) (t : Token) : Tokens where
  cells := s.cells.modify t.cell fun c => { c with raised := true }

/-- Cancels a token. -/
def cancel (s : Tokens) (t : Token) (scope : Scope) : Tokens := (s.record t scope).raise t

end Tokens

end Gauge
