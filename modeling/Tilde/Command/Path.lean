/-!
File names as they are shown. A name is a way through directories, its steps
separated by slashes. Empty steps and steps to where one is are left out, since
they lead nowhere; a step up to the parent is kept, since where it leads depends on
what is there. A name that begins with a slash begins at the root, and one that
begins with exactly two is kept apart from it.
-/

namespace Tilde.Command.Path

/-- The steps of a name: what stands between its slashes. -/
def steps (name : String) : List String :=
  let parts := name.toList.foldr (fun c parts =>
    if c = '/' then [] :: parts
    else match parts with
      | part :: rest => (c :: part) :: rest
      | [] => [[c]]) [[]]
  parts.map String.ofList

/-- The part of a name that says where its way begins. -/
def root (name : String) : String :=
  match (name.toList.takeWhile (· == '/')).length with
  | 0 => ""
  | 2 => "//"
  | _ => "/"

/-- Whether a step leads away from where one is. -/
def leads (step : String) : Bool :=
  step ≠ "" && step ≠ "."

def way (name : String) : List String :=
  (steps name).filter leads

/-- A name without the steps that lead nowhere. -/
def shown (name : String) : String :=
  let text := root name ++ "/".intercalate (way name)
  if text.isEmpty then "." else text

end Tilde.Command.Path
