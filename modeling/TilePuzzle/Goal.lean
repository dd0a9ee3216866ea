import TilePuzzle.World.Basic

/-!
# Goals

A goal lists the tiles on which an avatar has to stand and the tiles on which a block with a given
number has to rest; it is reached when all of them are satisfied at once. A goal without targets is
never reached. The goal also holds the budget of a run and the marks from which bonuses are counted.
-/

namespace TilePuzzle

/-- A tile on which a block with this number has to rest. -/
structure BlockTarget where
  position : Position
  number : Int
deriving DecidableEq, Repr

/-- What a run has to reach, what it may spend, and the marks for its bonuses. -/
structure Goal where
  idealTime : Int
  idealLines : Int
  /-- How many commands the avatars may execute together. -/
  budget : Int
  avatarTargets : List Position := []
  blockTargets : List BlockTarget := []
deriving DecidableEq, Repr

/-- The bonuses of a won run. Either is negative when the run went over its mark. -/
structure Bonus where
  lines : Int
  time : Int
deriving DecidableEq, Repr

namespace Goal

/-- What a line or a minute is worth. -/
def scoringFactor : Int := 10

/-- The seconds that count as one step of the time bonus. -/
def secondsPerStep : Int := 60

/-- Whether the goal names any target. -/
def hasTargets (g : Goal) : Bool := !g.avatarTargets.isEmpty || !g.blockTargets.isEmpty

/-- Whether the world satisfies every target, of which there is at least one. -/
def reached (g : Goal) (w : World) : Bool :=
  g.hasTargets
    && g.avatarTargets.all (fun p => (w.avatarOn? p).isSome)
    && g.blockTargets.all fun t => (w.blockOn? t.position).any (·.number = t.number)

/-- The bonuses of a program of `lines` lines that ends with `timeLeft` seconds left. Started minutes do
not count, on either side of zero. Both are exact: when the lines are so far from the mark that no word of
64 bits holds their bonus, it is not wrapped around. -/
def bonus (g : Goal) (lines timeLeft : Int) : Bonus where
  lines := (g.idealLines - lines) * scoringFactor
  time := Int.tdiv timeLeft secondsPerStep * scoringFactor

end Goal

end TilePuzzle
