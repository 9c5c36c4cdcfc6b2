/-!
# Blocked summation

A sum of fewer than eight numbers runs from left to right. A longer one of up to 128
numbers runs in eight lanes, each adding every eighth number; the lanes are added in
pairs and the numbers that fill no block of eight are added at the end. A still longer
one is halved at a multiple of eight. Only the order of the additions is fixed here,
so in exact arithmetic the sum is the ordinary one.
-/

namespace FeedForward

variable {γ : Type} [Add γ] [Zero γ]

/-- The sum from left to right, on top of a number. -/
def sumOnto (start : γ) (xs : List γ) : γ := xs.foldl (· + ·) start

/-- Adds further full blocks of eight numbers to the lanes; the numbers that are left
over follow. -/
def addBlocks (lanes xs : List γ) : List γ × List γ :=
  if 8 ≤ xs.length then addBlocks (List.zipWith (· + ·) lanes (xs.take 8)) (xs.drop 8)
  else (lanes, xs)
termination_by xs.length
decreasing_by simp only [List.length_drop]; omega

/-- The sum of eight lanes in pairs. -/
def joinLanes : List γ → γ
  | [a, b, c, d, e, f, g, h] => ((a + b) + (c + d)) + ((e + f) + (g + h))
  | lanes => sumOnto 0 lanes

/-- The sum of some numbers in the blocked order. -/
def blockedSum (xs : List γ) : γ :=
  if xs.length < 8 then sumOnto 0 xs
  else if xs.length ≤ 128 then
    let (lanes, rest) := addBlocks (xs.take 8) (xs.drop 8)
    sumOnto (joinLanes lanes) rest
  else
    let half := xs.length / 2 - xs.length / 2 % 8
    blockedSum (xs.take half) + blockedSum (xs.drop half)
termination_by xs.length
decreasing_by all_goals simp only [List.length_take, List.length_drop]; omega

end FeedForward
