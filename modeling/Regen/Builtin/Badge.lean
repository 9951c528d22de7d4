import Regen.Generator
import Regen.Url.Query

/-! Badges: images that link to a page about a package or a workflow. The value
that asks for a badge may end with a bar and the alternative text of the image. -/
namespace Regen

/-- The kinds of badges. -/
inductive BadgeKind where
  | version
  | workflow
  | license
deriving DecidableEq, Repr

/-- Why a value asks for no badge. -/
inductive BadgeFault where
  | noWorkflow (value : Text)
  | url (fault : Url.Fault)
deriving DecidableEq, Repr

/-- The complaint about a value. -/
def BadgeFault.message : BadgeFault → String
  | .noWorkflow value => "expected owner/repo/workflow, got: " ++ String.ofList (Text.quoted value)
  | .url fault => fault.message

namespace Badge

/-- The parameter that asks for a kind of badge. -/
def kindOf? (key : String) : Option BadgeKind :=
  if key = "pypi" then some .version
  else if key = "github_action" then some .workflow
  else if key = "license" then some .license
  else none

/-- Where the pages of packages are. -/
def packagePages : Text := "https://pypi.org/project/".toList

/-- Where the images of versions are. -/
def versionImages : Url :=
  ⟨"https".toList, "img.shields.io".toList, "/pypi/v/".toList, [], []⟩

/-- Where the images of licences are. -/
def licenseImages : Text := "https://img.shields.io/pypi/l/".toList

/-- Where the images of workflow states are. -/
def workflowImages : Text := "https://img.shields.io/github/actions/workflow/status/".toList

/-- The part before the first bar, and the alternative text after it. -/
def cutAlt (value : Text) (standard : String) : Text × Text :=
  ((Text.cutAt '|' value).1, (Text.cutAt '|' value).2.getD standard.toList)

/-- The image with its alternative text, linking to a page. -/
def markdown (alt image page : Text) : Text :=
  "[![".toList ++ alt ++ "](".toList ++ image ++ ")](".toList ++ page ++ [')']

/-- The page of a package. -/
def packagePage (name : Text) : Text := packagePages ++ name ++ ['/']

/-- The badge of a package's version; the value may carry a query for the image. -/
def version (value : Text) : Except BadgeFault Text :=
  let (reference, alt) := cutAlt value "PyPI Version"
  match Url.join versionImages reference with
  | .error fault => .error (.url fault)
  | .ok image =>
    match Url.read [] reference with
    | .error fault => .error (.url fault)
    | .ok url => .ok (markdown alt image (packagePage url.path))

/-- The three parts of `owner/repo/workflow`, none of them empty; the last one
may hold more slashes. -/
def workflowParts? (value : Text) : Option (Text × Text × Text) :=
  match Text.cutAt '/' value with
  | (_, none) => none
  | (owner, some rest) =>
    match Text.cutAt '/' rest with
    | (_, none) => none
    | (repo, some workflow) =>
      if owner.isEmpty || repo.isEmpty || workflow.isEmpty then none else some (owner, repo, workflow)

/-- The query for the runs on the branch that a query names, if it names one. -/
def runsQuery (query : Text) : Text :=
  match (Url.Query.fields query).lookup "branch".toList with
  | none => []
  | some branch => "query=".toList ++ Url.Query.encode ("branch:".toList ++ branch)

/-- The page of a workflow's runs. -/
def runsPage (owner repo : Text) (workflow : Url) : Text :=
  let path := '/' :: owner ++ '/' :: repo ++ "/actions/workflows/".toList ++ workflow.path
  (⟨"https".toList, "github.com".toList, path, runsQuery workflow.query, []⟩ : Url).write

/-- The badge of a workflow's state. -/
def workflow (value : Text) : Except BadgeFault Text :=
  let (target, alt) := cutAlt value "Build Status"
  match workflowParts? target with
  | none => .error (.noWorkflow target)
  | some (owner, repo, file) =>
    match Url.read [] file with
    | .error fault => .error (.url fault)
    | .ok url =>
      let image := workflowImages ++ owner ++ '/' :: repo ++ '/' :: file
      .ok (markdown alt image (runsPage owner repo url))

/-- The badge of a package's licence. -/
def license (value : Text) : Text :=
  let (package, alt) := cutAlt value "License"
  markdown alt (licenseImages ++ package ++ ".svg".toList) (packagePage package)

/-- The badge of a kind that a value asks for. -/
def make (kind : BadgeKind) (value : Text) : Except BadgeFault Text :=
  match kind with
  | .version => version value
  | .workflow => workflow value
  | .license => .ok (license value)

/-- One line for each parameter that asks for a badge, or the first of them that
does not, with its complaint. -/
def lines : Table → Except (String × BadgeFault) Text
  | [] => .ok []
  | (.text key, .text value) :: more =>
    match kindOf? key with
    | none => lines more
    | some kind =>
      match make kind value.toList with
      | .error fault => .error (key, fault)
      | .ok badge => (lines more).map (badge ++ '\n' :: ·)
  | _ :: more => lines more

/-- The answer to a request for badges. -/
def reply (params : Table) : Reply :=
  match lines params with
  | .ok text => .content text
  | .error (key, fault) =>
    .failure (.tuple [.text "invalid_badge", .text key, .text fault.message])

end Badge
end Regen
