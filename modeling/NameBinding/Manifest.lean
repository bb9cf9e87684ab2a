import NameBinding.Analysis
import NameBinding.Toml.Text

/-!
# The project manifest

A manifest sets the options of the analysis and declares records that live outside the analysed
units. Both parts may be left out; other parts are refused.
-/

namespace NameBinding

open Json

/-- The contents of a manifest. -/
structure Manifest where
  /-- The options of the analysis. -/
  options : Options := {}
  /-- The records from outside. -/
  externals : List ExternalRecord := []
deriving DecidableEq, Repr

/-- Reads a manifest from its table. -/
def Manifest.ofJson? (value : Json) : Option Manifest := do
  let entries ← value.entries?
  let options ← defaulted? entries "resolve" {} Options.ofJson?
  let externals ← defaulted? entries "external" [] (list? ExternalRecord.ofJson?)
  if onlyKeys entries ["resolve", "external"] then some { options, externals } else none

/-- Reads a manifest from its text. -/
def Manifest.parse? (text : String) : Option Manifest := do
  Manifest.ofJson? (← Toml.parse? text)

end NameBinding
