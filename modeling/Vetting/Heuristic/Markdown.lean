import Vetting.Heuristic.Assessment
import Vetting.Score.Checklist

/-! Design documents in Markdown: headings, the expected sections, and some length. -/

namespace Vetting

open Vetting.Text

/-- A shorter document is a stub. -/
def leastDocumentLength : Nat := 500

/-- Fewer sections are a fault. -/
def leastSections : Nat := 3

/-- What is found about the sections of a document. -/
def sectionFindings (present : List String) : List Finding :=
  let missing := designSections.filter fun name => !present.contains name
  .credit 10 present.length ::
    if present.length < leastSections then
      [.fault ("Only " ++ toString present.length ++ " of " ++ toString designSections.length
        ++ " expected sections present (missing: " ++ ", ".intercalate missing ++ ")")]
    else []

/-- Assesses a design document. -/
def assessDocument (doc : List Char) : Assessment :=
  let present := sectionsPresent doc
  .graded
    (Finding.check (has doc "# ") 30 "No Markdown headings found"
      ++ sectionFindings present
      ++ Finding.check (leastDocumentLength ≤ doc.length) 15
        ("Document too short (" ++ toString doc.length ++ " chars, expected "
          ++ toString leastDocumentLength ++ "+)")
      ++ Finding.bonus (has doc "|") 10)
    ("sections=" ++ toString present.length ++ "/" ++ toString designSections.length)

end Vetting
