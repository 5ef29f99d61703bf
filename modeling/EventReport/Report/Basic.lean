/-
A report: the whole of what is compiled.
-/
import EventReport.Report.Filter
import EventReport.Report.Attribute
import EventReport.Report.Outline

namespace EventReport

structure Report where
  website : Option Website := none
  filters : List Filter := []
  attributes : List Attribute := []
  outline : Outline := {}
deriving DecidableEq, Repr

end EventReport
