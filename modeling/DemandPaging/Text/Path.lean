set_option autoImplicit false

namespace DemandPaging.Text

inductive PathStep where
  | root
  | here
  | name (name : String)
deriving DecidableEq, Repr

def pathSteps (path : String) : List PathStep :=
  let parts := path.splitOn "/"
  let start := match parts with
    | "" :: _ :: _ => [.root]
    | "." :: _ => [.here]
    | _ => []
  start ++ (parts.filter fun part => part != "" && part != ".").map .name

end DemandPaging.Text
