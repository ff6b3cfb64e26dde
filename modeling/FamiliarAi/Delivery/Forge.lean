import FamiliarAi.Text.Basic

/-!
# Forges

The verbs that delivery issues to a forge, in the grammar of each forge. A forge may decline a verb; a
decline is an outcome, not an error.
-/

namespace FamiliarAi

/-- The forge that change requests are published, checked and merged through. -/
inductive Forge
  | github
  | gitlab
  | gitea
  | none
  deriving DecidableEq

/-- A change request, as the forge names it. -/
structure ChangeRequestId where
  id : String
  display : Option String
  url : Option String

/-- The arguments to run, or a refusal. -/
inductive ForgeCall
  | run (argv : List String)
  | declined

/-- `str::parse::<u64>`. -/
def parseU64? (text : List Char) : Option ℕ :=
  let digits := match text with
    | '+' :: rest => rest
    | _ => text
  if digits ≠ [] ∧ digits.all Char.isDigit = true ∧ Nat.ofDigitChars 10 digits 0 < 2 ^ 64 then
    some (Nat.ofDigitChars 10 digits 0)
  else Option.none

namespace Forge

def publish (forge : Forge) (base branch : String) : ForgeCall :=
  match forge with
  | github => .run ["pr", "create", "--fill", "--base", base, "--head", branch]
  | gitlab => .run ["mr", "create", "--fill", "--target-branch", base, "--source-branch", branch]
  | gitea => .run ["pulls", "create", "--base", base, "--head", branch, "--title", branch]
  | none => .declined

def locate (forge : Forge) (branch : String) : ForgeCall :=
  match forge with
  | github => .run ["pr", "view", branch, "--json", "number", "--jq", ".number"]
  | gitlab => .run ["mr", "view", branch, "--output", "json", "--jq", ".iid"]
  | gitea => .run ["pulls", "ls", "--head", branch, "--fields", "index", "--output", "simple"]
  | none => .declined

/-- The change request that `locate` has printed. -/
def parseChangeRequest (forge : Forge) (stdout : String) : Option ChangeRequestId :=
  let trimmed := Text.trim stdout.toList
  if trimmed = [] then Option.none
  else
    let id := String.ofList trimmed
    match forge with
    | github => (parseU64? trimmed).map fun _ ↦ ⟨id, Option.none, Option.none⟩
    | gitlab => some ⟨id, some ("!" ++ id), Option.none⟩
    | gitea => some ⟨id, Option.none, Option.none⟩
    | none => Option.none

def waitChecks (forge : Forge) (change : String) : ForgeCall :=
  match forge with
  | github => .run ["pr", "checks", change, "--watch", "--fail-fast"]
  | gitlab => .run ["mr", "checks", change]
  | gitea | none => .declined

def checkNamed (forge : Forge) (change check : String) : ForgeCall :=
  match forge with
  | github => .run ["pr", "check", change, check]
  | gitlab => .run ["mr", "checks", change, check]
  | gitea | none => .declined

def merge (forge : Forge) (change : String) : ForgeCall :=
  match forge with
  | github => .run ["pr", "merge", change, "--merge", "--delete-branch"]
  | gitlab => .run ["mr", "merge", change, "--remove-source-branch"]
  | gitea => .run ["pulls", "merge", change]
  | none => .declined

def comment (forge : Forge) (change body : String) : ForgeCall :=
  match forge with
  | github => .run ["pr", "comment", change, "--body", body]
  | gitlab => .run ["mr", "note", change, "--message", body]
  | gitea => .run ["comment", "create", "--issue", change, "--body", body]
  | none => .declined

def name : Forge → String
  | github => "github"
  | gitlab => "gitlab"
  | gitea => "gitea"
  | none => "none"

end Forge

end FamiliarAi
