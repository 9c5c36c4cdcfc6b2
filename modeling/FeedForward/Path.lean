import FeedForward.Fault

/-!
# Paths

A path is a sequence of steps with slashes between them. Empty steps and single points lead
nowhere, two points lead one step back. Only the shortest form of a path drops steps that
lead nowhere; steps back stay in it and are taken when a file is looked up.
-/

namespace FeedForward.Path

/-- The steps of a path that lead somewhere. -/
def steps (path : String) : List String :=
  (path.splitOn "/").filter fun step => step ≠ "" && step ≠ "."

/-- A path in its shortest form with the same steps. -/
def plain (path : String) : String :=
  let root := if path.startsWith "//" && !path.startsWith "///" then "//"
    else if path.startsWith "/" then "/" else ""
  if (steps path).isEmpty && root = "" then "." else root ++ "/".intercalate (steps path)

/-- A path, if it can lead to a file: no character of it is the null character. -/
def check (path : String) : Except Fault String :=
  if path.toList.contains '\x00' then .error .pathRange else .ok path

/-- A file in a directory that is given in its shortest form. -/
def file (directory name : String) : String :=
  if directory = "." then name
  else if directory.endsWith "/" then directory ++ name
  else directory ++ "/" ++ name

/-- The last part of a path. -/
def fileName (path : String) : String :=
  String.ofList (path.toList.reverse.takeWhile (· != '/')).reverse

/-- The ending of a file's name: its last point and what follows. A point in front or at the
end starts none. -/
def ending (name : String) : String :=
  let behind := name.toList.reverse.takeWhile (· != '.')
  if behind.isEmpty || name.length ≤ behind.length + 1 then ""
  else String.ofList ('.' :: behind.reverse)

/-- The steps of a path with every step back taken. -/
def resolveSteps : List String → List String → List String
  | done, [] => done.reverse
  | done, ".." :: rest =>
    match done with
    | last :: before => if last = ".." then resolveSteps (".." :: done) rest
        else resolveSteps before rest
    | [] => resolveSteps [".."] rest
  | done, step :: rest => resolveSteps (step :: done) rest

/-- The place in the working directory that a path leads to, unless it leads out of it. -/
def inside? (path : String) : Option String :=
  let steps := resolveSteps [] (steps path)
  if path.startsWith "/" || steps.head? = some ".." then none
  else some ("/".intercalate steps)

end FeedForward.Path
