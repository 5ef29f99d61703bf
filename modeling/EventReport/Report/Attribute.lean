/-
Custom attributes of events.

The values of an attribute stand in a table of their own, under the attribute's
key.  A report names the attribute by a column whose name is made from the key,
so two keys may come to the same column.
-/
import EventReport.Text.Identifier

namespace EventReport

inductive AttributeType where
  | string
  | number
deriving DecidableEq, Repr

namespace AttributeType

def name : AttributeType → String
  | string => "string"
  | number => "number"

def names : List (String × AttributeType) := [("string", string), ("number", number)]

end AttributeType

structure Attribute where
  /-- The key as it is stored. -/
  key : String
  type : AttributeType := .string
deriving DecidableEq, Repr

namespace Attribute

/-- How the name of every attribute column begins. -/
def columnMark : String := "param_"

/-- The column that stands for the attribute in a report. -/
def columnId (a : Attribute) : String := columnMark ++ Text.keyFragment a.key

/-- Whether a column name is that of an attribute. -/
def isColumnId (name : String) : Bool := columnMark.toList.isPrefixOf name.toList

end Attribute

end EventReport
