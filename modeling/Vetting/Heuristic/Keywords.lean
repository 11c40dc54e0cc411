import Vetting.Heuristic.Assessment
import Vetting.Text.Letters
import Vetting.Text.Search

/-! Artifacts that are judged by the words in them when no tool for them is at hand. -/

namespace Vetting

open Vetting.Text

/-- Assesses the C++ source of a service. -/
def assessCpp (code : List Char) : Assessment :=
  .graded
    (Finding.bonus (has code "#include") 15
      ++ Finding.bonus (has code "namespace") 15
      ++ Finding.bonus (has code "class ") 20
      ++ Finding.check (bracesBalanced code) 15 "Unbalanced braces"
      ++ Finding.check (containsAny code ["getAllPropertyConfigs", "getValues", "setValues"]) 25
        "Missing key VHAL methods (getAllPropertyConfigs/getValues/setValues)"
      ++ Finding.bonus (containsAny code ["int32_t", "VehiclePropValue", "float", "bool"]) 10)
    none

/-- Assesses a type-enforcement policy. -/
def assessSelinux (policy : List Char) : Assessment :=
  .graded
    (Finding.bonus (has policy "type ") 25
      ++ Finding.check (has policy "allow ") 30 "No 'allow' rules found"
      ++ Finding.check (containsAny policy ["hal_vehicle", "vhal", "hal_attribute"]) 25
        "No VHAL-specific type declarations"
      ++ Finding.bonus (containsAny policy ["binder_call", "hwservice_use", "add_hwservice"]) 20)
    none

/-- Assesses a Kotlin fragment. -/
def assessKotlin (code : List Char) : Assessment :=
  .graded
    (Finding.bonus (containsAny code ["CarPropertyManager", "Car.createCar"]) 25
      ++ Finding.bonus (has code "Fragment") 15
      ++ Finding.bonus (has code "fun ") 15
      ++ Finding.bonus (containsAny code ["onViewCreated", "onCreateView"]) 15
      ++ Finding.bonus (containsAny code ["registerCallback", "CarPropertyEventCallback"]) 15
      ++ Finding.check (bracesBalanced code) 15 "Unbalanced braces")
    none

/-- A diagram with fewer lines is likely to be incomplete. -/
def leastDiagramLines : Nat := 5

/-- Assesses a diagram. -/
def assessDiagram (puml : List Char) : Assessment :=
  let count := (lines puml).length
  .graded
    (Finding.bonus (has puml "@startuml") 30
      ++ Finding.bonus (has puml "@enduml") 30
      ++ Finding.bonus (containsAny puml ["->", "-->", "=>"]) 20
      ++ Finding.bonus
        (containsAny puml ["component", "package", "node", "class", "rectangle"]) 20
      ++ if count < leastDiagramLines then
          [.fault "Diagram too short, likely incomplete"]
        else [])
    (toString count ++ " lines")

/-- The marker that a diagram lacks, with the hundredths of credit it gets nevertheless. -/
def missingMarker? (puml : List Char) : Option (Nat × String) :=
  if !has puml "@startuml" then some (10, "Missing @startuml")
  else if !has puml "@enduml" then some (15, "Missing @enduml")
  else none

end Vetting
