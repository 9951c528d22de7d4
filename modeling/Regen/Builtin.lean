import Regen.Builtin.Badge
import Regen.Builtin.Evaluation
import Regen.Builtin.Requirement
import Regen.Schema

/-! The built-in generator. Its actions are a dependency snippet, badges, named
sections and the evaluation of code in a section. -/
namespace Regen

namespace Builtin

/-- A parameter that need not be given. -/
def optional (type : ParamType) (doc : String) : Value :=
  .param (.text type.name) (.bool false) .none (.text doc)

/-- A parameter that has to be given. -/
def required (type : ParamType) (doc : String) : Value :=
  .param (.text type.name) (.bool true) .none (.text doc)

/-- A switch with the state it has when it is not given. -/
def switch (standard : Bool) (doc : String) : Value :=
  .param (.text ParamType.boolean.name) (.bool false) (.bool standard) (.text doc)

/-- An entry of the catalogue. -/
def action (name : String) (params : Entries) (doc : String) (container : Value) : String × Value :=
  (name, .action (.text name) (Value.ofEntries params) (.text doc) container)

/-- The dependency snippet. -/
def requirementAction : String × Value :=
  action "app_dep"
    [("package", optional .string
        "The distribution name. Defaults to the `package_name` variable."),
      ("vsn", optional .string
        "The version to require. Defaults to the installed version of the package."),
      ("comma", switch true "Include a comma after the requirement string."),
      ("patch", switch false "Include the patch component in the required version."),
      ("extras", optional .string "Extras to require, separated with commas."),
      ("only", optional .string
        ("Declares the requirement in `[project.optional-dependencies]` " ++
          "under these groups, separated with commas."))]
    "Generates a fenced `pyproject.toml` snippet declaring a dependency on a package." .none

/-- Badges. -/
def badgesAction : String × Value :=
  action "badges"
    [("pypi", optional .string
        ("Generates a version badge linking to PyPI. Requires a package name and " ++
          "an optional query string for customization. " ++
          "Example: `\"readmix?color=4e2a8e\"`.")),
      ("github_action", optional .string
        ("Generates a badge linking to the latest GitHub Action run. Requires " ++
          "`owner/repo/workflow_file` and an optional query string. " ++
          "Example: `\"me/readmix/ci.yaml?label=CI&branch=main\"`.")),
      ("license", optional .string
        "Generates a license badge for a PyPI package. Example: `\"readmix\"`.")]
    ("Generates badges with `img.shields.io`.\n\n" ++
      "Badges are generated in the order of the action params. Any value may end " ++
      "with `|alt text` to replace the image alt text.") .none

/-- Named sections. -/
def sectionAction : String × Value :=
  action "section" [("name", required .string "The name of the section.")]
    ("Defines a named block that other actions can retrieve during generation.\n\n" ++
      "The section itself doesn't transform content but allows nested blocks to be " ++
      "processed. Uniqueness of names is not enforced.") (.text "name")

/-- Evaluation. -/
def evaluationAction : String × Value :=
  action "eval"
    [("section", required .string "The name of the section to evaluate."),
      ("catch", switch false "Display exception banners as output instead of failing.")]
    ("Evaluates the first fenced `python` code block of the last section with the " ++
      "given name at the same nesting level, and outputs the value of its final " ++
      "expression in a fenced code block.") .none

/-- The actions in the order of the catalogue. -/
def catalog : Entries :=
  [requirementAction, badgesAction, sectionAction, evaluationAction]

/-- What the generator does in answer to a call. -/
def generate (evaluate : Evaluator) (installed : List Distribution) (action : String)
    (params : Table) (context : Context) : Script :=
  match action with
  | "app_dep" => .reply (Requirement.reply installed params context.vars)
  | "badges" => .reply (Badge.reply params)
  | "section" => .transparent
  | "eval" => Evaluation.generate evaluate params context
  | action => .reply (.failure (.tuple [.text "unknown_action", .text action]))

/-- The generator, for some meaning of code and some installed distributions. -/
def generator (evaluate : Evaluator) (installed : List Distribution) : Generator :=
  ⟨"BuiltIn", .ok (Value.ofEntries catalog), generate evaluate installed⟩

end Builtin
end Regen
