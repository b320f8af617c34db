import DuplexRpc.Proofs.Connection.Calls
import DuplexRpc.Proofs.Connection.Serving

namespace DuplexRpc

-- What a connection is set up with.
structure Endpoint where
  config : Config
  served : Registry
  called : Registry
  handlers : List (String × MethodKind)

def Endpoint.connection (e : Endpoint) : Connection := .initial e.config e.served e.called e.handlers

-- Two connections back to back, each with the number of octets it has received of what the
-- other wrote.
structure Pair where
  left : Connection
  right : Connection
  leftTook : Nat := 0
  rightTook : Nat := 0

namespace Pair
open Connection (Action received)

inductive Move where
  | left (action : Action)
  | right (action : Action)

-- What one side receives is what the other wrote, in order and cut anywhere.
def step (p : Pair) : Move → Option Pair
  | .left action =>
    if action.chunk <+: p.right.written.drop p.leftTook then
      (p.left.step action).map fun left => { p with left := left, leftTook := p.leftTook + action.chunk.length }
    else none
  | .right action =>
    if action.chunk <+: p.left.written.drop p.rightTook then
      (p.right.step action).map fun right => { p with right := right, rightTook := p.rightTook + action.chunk.length }
    else none

def joined (a b : Endpoint) : Pair where
  left := a.connection
  right := b.connection

-- Any order of moves of either side.
inductive Runs : Pair → List Move → Pair → Prop where
  | nil {p} : Runs p [] p
  | snoc {origin before after moves move} :
      Runs origin moves before → before.step move = some after → Runs origin (moves ++ [move]) after

def runAll (p : Pair) (moves : List Move) : Option Pair := moves.foldlM step p

def Move.left? : Move → Option Action
  | .left action => some action
  | .right _ => none

def Move.right? : Move → Option Action
  | .left _ => none
  | .right action => some action

def lefts (moves : List Move) : List Action := moves.filterMap Move.left?
def rights (moves : List Move) : List Action := moves.filterMap Move.right?

variable {a b : Endpoint} {p q origin : Pair} {moves more : List Move} {move : Move}

theorem Runs.cons (first : origin.step move = some p) (runs : Runs p moves q) : Runs origin (move :: moves) q := by
  induction runs with
  | nil => exact .snoc .nil first
  | snoc _ moved ih => exact .snoc ih moved

theorem runs_of_runAll (run : origin.runAll moves = some p) : Runs origin moves p := by
  induction moves generalizing origin with
  | nil =>
    cases run
    exact .nil
  | cons move rest ih =>
    obtain ⟨after, moved, later⟩ := Option.bind_eq_some_iff.mp run
    exact .cons moved (ih later)

theorem step_left {action : Action} (moved : p.step (.left action) = some q) :
    action.chunk <+: p.right.written.drop p.leftTook ∧ p.left.step action = some q.left ∧ q.right = p.right ∧
      q.leftTook = p.leftTook + action.chunk.length ∧ q.rightTook = p.rightTook := by
  simp only [step] at moved
  split at moved
  · rename_i there
    obtain ⟨left, moved', rfl⟩ := Option.map_eq_some_iff.mp moved
    exact ⟨there, moved', rfl, rfl, rfl⟩
  · cases moved

theorem step_right {action : Action} (moved : p.step (.right action) = some q) :
    action.chunk <+: p.left.written.drop p.rightTook ∧ p.right.step action = some q.right ∧ q.left = p.left ∧
      q.rightTook = p.rightTook + action.chunk.length ∧ q.leftTook = p.leftTook := by
  simp only [step] at moved
  split at moved
  · rename_i there
    obtain ⟨right, moved', rfl⟩ := Option.map_eq_some_iff.mp moved
    exact ⟨there, moved', rfl, rfl, rfl⟩
  · cases moved

-- One direction: the receiver has the first octets of what the writer wrote.
def Flows (writer : Connection) (octets : List UInt8) (took : Nat) : Prop :=
  octets <+: writer.written ∧ octets.length = took

theorem Flows.receive {writer : Connection} {octets chunk : List UInt8} {took : Nat} (flows : Flows writer octets took)
    (there : chunk <+: writer.written.drop took) : Flows writer (octets ++ chunk) (took + chunk.length) := by
  obtain ⟨⟨rest, whole⟩, rfl⟩ := flows
  refine ⟨?_, List.length_append⟩
  rw [← whole, List.drop_left] at there
  rw [← whole]
  exact (List.prefix_append_right_inj octets).mpr there

theorem Flows.write {writer after : Connection} {action : Action} {octets : List UInt8} {took : Nat}
    (flows : Flows writer octets took) (moved : writer.step action = some after) : Flows after octets took := by
  refine ⟨?_, flows.2⟩
  rw [Connection.step_written moved]
  exact flows.1.trans (List.prefix_append ..)

-- What a run of the pair is for its sides.
structure Joined (a b : Endpoint) (as bs : List Action) (left right : Connection) : Prop where
  leftRuns : Connection.Runs a.connection as left
  rightRuns : Connection.Runs b.connection bs right
  toLeft : received as <+: right.written
  toRight : received bs <+: left.written

theorem runs_joined (runs : Runs (joined a b) moves p) : Joined a b (lefts moves) (rights moves) p.left p.right := by
  have sides : Connection.Runs a.connection (lefts moves) p.left ∧ Connection.Runs b.connection (rights moves) p.right ∧
      Flows p.right (received (lefts moves)) p.leftTook ∧ Flows p.left (received (rights moves)) p.rightTook := by
    induction runs with
    | nil => exact ⟨.nil, .nil, ⟨List.nil_prefix, rfl⟩, ⟨List.nil_prefix, rfl⟩⟩
    | @snoc before after moves move _ moved ih =>
      obtain ⟨left, right, toLeft, toRight⟩ := ih
      cases move with
      | left action =>
        obtain ⟨there, moved', same, took, took'⟩ := step_left moved
        have split : lefts (moves ++ [.left action]) = lefts moves ++ [action] := by simp [lefts, Move.left?]
        have other : rights (moves ++ [.left action]) = rights moves := by simp [rights, Move.right?]
        have octets : received (lefts moves ++ [action]) = received (lefts moves) ++ action.chunk := by simp [received]
        rw [split, other, octets, same, took, took']
        exact ⟨left.snoc moved', right, toLeft.receive there, toRight.write moved'⟩
      | right action =>
        obtain ⟨there, moved', same, took, took'⟩ := step_right moved
        have split : rights (moves ++ [.right action]) = rights moves ++ [action] := by simp [rights, Move.right?]
        have other : lefts (moves ++ [.right action]) = lefts moves := by simp [lefts, Move.left?]
        have octets : received (rights moves ++ [action]) = received (rights moves) ++ action.chunk := by simp [received]
        rw [split, other, octets, same, took, took']
        exact ⟨left, right.snoc moved', toLeft.write moved', toRight.receive there⟩
  exact ⟨sides.1, sides.2.1, sides.2.2.1.1, sides.2.2.2.1⟩

end Pair
end DuplexRpc
