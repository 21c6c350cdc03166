/-! Why a query is refused. Every refusal names the part of the query to correct. -/
namespace RegionalTables

inductive Rejection where
  | unknownParameters (names : List String)
  | repeated (name : String)
  | notAList (name : String)
  | invalidValue (name value : String)
  | mixedAll (name : String)
  | malformedEntry (entry : String)
  | missingData
  | unknownStatistic (key : String)
  | unknownMeasure (statistic measure : String)
  | unknownDimension (measure dimension : String)
  | unknownValue (dimension value : String)
  | levelNotAvailable (measure : String) (level : UInt8)
  | unknownParent (region : String)
  | unknownRegion (region : String)
  deriving DecidableEq

namespace Rejection

def tick (s : String) : String := "`" ++ s ++ "`"

def message : Rejection → String
  | unknownParameters names => "unknown attributes: " ++ ", ".intercalate names
  | repeated name => "param " ++ tick name ++ " can only be used once in query string"
  | notAList name => "param " ++ tick name ++ " can not be comma-separated"
  | invalidValue name value => tick value ++ " is not valid for param " ++ tick name
  | mixedAll name => "`all` can not be combined with other values for param " ++ tick name
  | malformedEntry entry =>
    tick entry ++ " is not a valid data entry, expected `statistic:measure` or " ++
      "`statistic:measure(DIMENSION:value|value,DIMENSION)`"
  | missingData => "param `data` is required"
  | unknownStatistic key => "statistic " ++ tick key ++ " does not exist"
  | unknownMeasure statistic measure =>
    "measure " ++ tick measure ++ " does not exist for statistic " ++ tick statistic
  | unknownDimension measure dimension =>
    "dimension " ++ tick dimension ++ " does not exist for measure " ++ tick measure
  | unknownValue dimension value =>
    "value " ++ tick value ++ " does not exist for dimension " ++ tick dimension
  | levelNotAvailable measure level =>
    "region level " ++ tick (toString level.toNat) ++ " is not available for measure " ++ tick measure
  | unknownParent region => "parent " ++ tick region ++ " does not exist"
  | unknownRegion region => "region " ++ tick region ++ " does not exist"

end Rejection

end RegionalTables
