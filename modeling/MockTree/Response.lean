import MockTree.Value.Basic
/-! Responses as definitions describe them. -/
namespace MockTree

/-- What a response was made from. -/
inductive Response.Origin
  | template
  | code
  | file
  | default
  deriving DecidableEq, Repr

def Response.Origin.name : Response.Origin → String
  | .template => "template"
  | .code => "code"
  | .file => "file"
  | .default => "default"

/-- The delay is in milliseconds; a file's content takes the place of the body. -/
structure Response where
  status : Int
  headers : List (String × String)
  body : String
  file : Option String
  delay : Int
  origin : Response.Origin
  deriving DecidableEq, Repr

namespace Response

/-- The status of a definition that states none. -/
def defaultStatus : Int := 404

def empty : Response := ⟨defaultStatus, [], "", none, 0, .template⟩

/-- A header given again keeps its place and takes the new value. -/
def putHeader (name value : String) : List (String × String) → List (String × String)
  | [] => [(name, value)]
  | (n, v) :: r => if n == name then (n, value) :: r else (n, v) :: putHeader name value r

def setHeader (name value : String) (r : Response) : Response :=
  { r with headers := putHeader name value r.headers }

/-- The response to a request that nothing is defined for. -/
def notFound : Response :=
  ⟨404, [("content-type", "application/json")], "\x7b\"error\": \"Not Found\"\x7d", none, 0, .default⟩

theorem putHeader_names (name value : String) (headers : List (String × String)) :
    (putHeader name value headers).map (·.1) =
      if name ∈ headers.map (·.1) then headers.map (·.1) else headers.map (·.1) ++ [name] := by
  induction headers with
  | nil => simp [putHeader]
  | cons h r ih =>
    by_cases hn : h.1 = name
    · simp [putHeader, hn]
    · simp only [putHeader, beq_iff_eq, hn, if_false, List.map_cons, ih, List.mem_cons,
        Ne.symm hn, false_or]
      split <;> simp

end Response
end MockTree
