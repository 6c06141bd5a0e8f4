
namespace OrderSaga

namespace Text

/-- Whether `t` occurs in `cs`. -/
def occursIn (t : List Char) : List Char → Bool
  | [] => t.isEmpty
  | c :: rest => t.isPrefixOf (c :: rest) || occursIn t rest

/-- Replaces every occurrence of the nonempty `p` in `cs` by `r`. -/
def replaceAll (p r : List Char) (cs : List Char) : List Char :=
  match cs with
  | [] => []
  | c :: rest =>
    if !p.isEmpty && p.isPrefixOf (c :: rest) then r ++ replaceAll p r ((c :: rest).drop p.length)
    else c :: replaceAll p r rest
termination_by cs.length
decreasing_by
  all_goals simp only [List.length_cons, List.length_drop]
  · have : p.length ≠ 0 := by simp_all
    omega
  · omega

def isHexLower (c : Char) : Bool := c.isDigit || ('a' ≤ c && c ≤ 'f')

/-- Whether the characters are exactly one UUID. -/
def isUuid (cs : List Char) : Bool :=
  cs.length == 36 && cs.zipIdx.all fun (c, i) =>
    if i == 8 || i == 13 || i == 18 || i == 23 then c == '-' else isHexLower c

/-- Replaces every UUID in `cs` that `keep` does not keep by `<uuid>`. -/
def maskUuids (keep : List Char → Bool) (cs : List Char) : List Char :=
  match cs with
  | [] => []
  | c :: rest =>
    let head := (c :: rest).take 36
    if isUuid head then
      (if keep head then head else "<uuid>".toList) ++ maskUuids keep ((c :: rest).drop 36)
    else c :: maskUuids keep rest
termination_by cs.length
decreasing_by
  all_goals simp only [List.length_cons, List.length_drop]
  all_goals omega

/-- Every UUID that `cs` holds, wherever it starts. -/
def uuidsIn (cs : List Char) : List String :=
  match cs with
  | [] => []
  | c :: rest =>
    let head := (c :: rest).take 36
    if isUuid head then String.ofList head :: uuidsIn rest else uuidsIn rest

end Text

end OrderSaga
