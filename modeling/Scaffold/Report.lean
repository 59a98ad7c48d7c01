import Scaffold.Artifact.Pair

/-!
The report of one run, and what is said about it: warnings first, then the files that were written,
the files that would be, or that nothing was.
-/

namespace Scaffold

inductive Outcome where
  | written (createdDirectory : Bool) (files : List Path)
  | declined
  | preview (files : List NamedText)
deriving DecidableEq, Repr

structure Report where
  typeName : String
  destination : Path
  warnings : List String
  outcome : Outcome
deriving DecidableEq, Repr

inductive Remark where
  | warning (text : String)
  | heading (text : String)
  | addedItem (text : String)
  | blank
  | keyValue (key value : String)
  | preformatted (text : String)
  | divider (label : String)
deriving DecidableEq, Repr

namespace Remark

def isWarning : Remark → Bool
  | warning _ => true
  | _ => false

def text : Remark → String
  | warning text => "warning: " ++ text ++ "\n"
  | heading text => text ++ ":\n"
  | addedItem text => "  + " ++ text ++ "\n"
  | blank => "\n"
  | keyValue key value => key ++ ": " ++ value ++ "\n"
  | preformatted text => text ++ "\n"
  | divider label => "── " ++ label ++ " ──\n"

end Remark

namespace Outcome

def remarks (typeName : String) (destination : Path) : Outcome → List Remark
  | written createdDirectory files =>
    .heading ("Generated " ++ typeName) :: files.map (.addedItem ·.text) ++
      if createdDirectory then [] else [.blank, .keyValue "Overwrote" destination.text]
  | declined => [.preformatted "Aborted, nothing was written."]
  | preview files =>
    files.flatMap (fun file => [.divider file.name, .preformatted file.content]) ++
      [.divider "Summary",
        .preformatted (toString files.length ++ " files would be generated in " ++
          destination.text)]

end Outcome

namespace Report

def remarks (report : Report) : List Remark :=
  report.warnings.map .warning ++ report.outcome.remarks report.typeName report.destination

def outputText (report : Report) : String :=
  String.join ((report.remarks.filter (!·.isWarning)).map Remark.text)

def warningText (report : Report) : String :=
  String.join ((report.remarks.filter (·.isWarning)).map Remark.text)

end Report

end Scaffold
