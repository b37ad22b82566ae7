import Aerial.Simulator

/-! # One thing after the other

A rotator is made to do things in turn, and each response says how it goes on from there. What is
done may be refused, and then the next is done all the same. A `Task` is what a rotator is made to
do: a request, or a move that nobody asked for. -/

namespace Aerial

namespace Response

variable {ρ α : Type}

/-- The rotator after some doings, with all changes in order. A doing that is refused does not
keep back the next. -/
def inTurn (f : ρ → α → Response ρ) : ρ → List α → ρ × List Change
  | v, [] => (v, [])
  | v, a :: doings =>
    let (after, changes) := inTurn f (f v a).rotator doings
    (after, (f v a).changes ++ changes)

theorem inTurn_singleton (f : ρ → α → Response ρ) (v : ρ) (a : α) :
    inTurn f v [a] = ((f v a).rotator, (f v a).changes) :=
  Prod.ext rfl (List.append_nil _)

theorem inTurn_append (f : ρ → α → Response ρ) (v : ρ) (as bs : List α) :
    inTurn f v (as ++ bs) = ((inTurn f (inTurn f v as).1 bs).1,
      (inTurn f v as).2 ++ (inTurn f (inTurn f v as).1 bs).2) := by
  induction as generalizing v with
  | nil => rfl
  | cons a as ih => simp only [List.cons_append, inTurn, ih, List.append_assoc]

end Response

/-- What a rotator is made to do: a request, or a move that nobody asked for. -/
inductive Task where
  | request (r : Request)
  | move (m : Simulator.Move)
deriving DecidableEq

namespace Task

def request? : Task → Option Request
  | request r => some r
  | move _ => none

def move? : Task → Option Simulator.Move
  | request _ => none
  | move m => some m

end Task

def Simulator.carryOut (s : Simulator) : Task → Response Simulator
  | .request r => s.execute r
  | .move m => s.perform m

/-- A simulator of its own, without any station, after some tasks. -/
def Simulator.work (s : Simulator) (tasks : List Task) : Simulator × List Change :=
  Response.inTurn carryOut s tasks

end Aerial
