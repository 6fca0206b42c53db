import TimelineExport.Number.Scalar

/-!
# Tempo stages

One stage of tempo change takes factors from a half to two, so a larger change is a product of
stages. `tempoStages` splits a speed into stages of two, or of a half, and a remainder; a
remainder of one is left out. At most four stages are allowed.
-/

namespace TimelineExport

/-- Why a speed cannot be split into stages. -/
inductive TempoFault where
  | notPositive
  | tooMany (stages : Nat)
  deriving DecidableEq, Repr

/-- What a reader is told about a speed that cannot be split. -/
def TempoFault.message (speed : String) : TempoFault → String
  | notPositive => "speed must be positive, got " ++ speed
  | tooMany stages =>
    "speed " ++ speed ++ " needs " ++ toString stages ++ " atempo stages (max 4)"

/-- The greatest number of stages. -/
def maxTempoStages : Nat := 4

section
variable {α : Type} [Scalar α]

/-- Takes stages of two off a speed while it is above two. -/
def fastStages : (fuel : Nat) → α → List α × α
  | 0, speed => ([], speed)
  | fuel + 1, speed =>
    if speed > 2 then
      let (stages, rest) := fastStages fuel (speed / 2)
      (2 :: stages, rest)
    else ([], speed)

/-- Takes stages of a half off a speed while it is below a half. -/
def slowStages : (fuel : Nat) → α → List α × α
  | 0, speed => ([], speed)
  | fuel + 1, speed =>
    if speed < 0.5 then
      let (stages, rest) := slowStages fuel (speed / 0.5)
      (0.5 :: stages, rest)
    else ([], speed)

/-- The stages whose product is a speed. -/
def tempoStages (speed : α) : Except TempoFault (List α) :=
  if speed ≤ 0 then .error .notPositive
  else
    let fuel := Scalar.halvings speed
    let (fast, rest) := fastStages fuel speed
    let (slow, rest) := slowStages fuel rest
    let last := if Scalar.magnitude (rest - 1) > 1e-9 then [rest] else []
    let stages := fast ++ slow ++ last
    if maxTempoStages < stages.length then .error (.tooMany stages.length) else .ok stages

end

end TimelineExport
