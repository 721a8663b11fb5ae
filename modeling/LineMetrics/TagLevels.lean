import LineMetrics.MetricTree
import LineMetrics.Point
import LineMetrics.ReservedName

/-!
# The levels that tags belong to

The tags of a point are flat. Some keys describe the resource, two name the scope,
and the rest are attributes of the data point. `split` sorts tags into these levels
and `merge` puts the levels together again, a later level over an earlier one.
-/

namespace LineMetrics

/-- The namespaces whose keys describe the resource. -/
def resourceNamespaces : List String := [
  "service.", "telemetry.", "container.", "process.", "host.", "os.", "device.",
  "cloud.", "deployment.", "k8s.", "aws.", "gcp.", "azure.", "heroku.", "browser.",
  "webengine."]

/-- Single keys that describe the resource, in a namespace that does not. -/
def resourceKeys : List String := [
  "faas.name", "faas.id", "faas.version", "faas.instance", "faas.max_memory"]

/-- The key describes the resource. -/
def isResourceKey (key : String) : Bool :=
  resourceNamespaces.any (fun space => space.toList.isPrefixOf key.toList) ||
    resourceKeys.contains key

/-- Tags by the level that they belong to. -/
structure TagLevels where
  resource : Tags := ∅
  scope : Scope := ⟨"", ""⟩
  attributes : Tags := ∅
  deriving DecidableEq

namespace TagLevels

/-- Put a tag on its level. A tag without a key is dropped. -/
def add (levels : TagLevels) (key value : String) : TagLevels :=
  if key = "" then levels
  else if key = ReservedName.scopeName then
    { levels with scope := { levels.scope with name := value } }
  else if key = ReservedName.scopeVersion then
    { levels with scope := { levels.scope with version := value } }
  else if isResourceKey key then
    { levels with resource := levels.resource.insert key value }
  else { levels with attributes := levels.attributes.insert key value }

/-- The tags of a point by level. -/
def split (tags : Tags) : TagLevels :=
  tags.entries.foldl (fun levels entry => levels.add entry.1 entry.2) {}

/-- Add attributes to tags, over tags with the same keys. -/
def addAttributes (tags : Tags) (attributes : List Attribute) : Tags :=
  attributes.foldl
    (fun tags entry =>
      match entry.toTag? with
      | some (key, value) => tags.insert key value
      | none => tags)
    tags

/-- Add a tag whose value is not empty. -/
def addNonempty (tags : Tags) (key value : String) : Tags :=
  if value = "" then tags else tags.insert key value

/-- Add the name and version of a scope to tags. -/
def addScope (tags : Tags) : Option Scope -> Tags
  | none => tags
  | some scope =>
      addNonempty (addNonempty tags ReservedName.scopeName scope.name)
        ReservedName.scopeVersion scope.version

/-- The flat tags of a data point under a resource and a scope. -/
def merge
    (resource : List Attribute)
    (scope : Option Scope)
    (attributes : List Attribute) : Tags :=
  addAttributes (addScope (addAttributes ∅ resource) scope) attributes

end TagLevels
end LineMetrics
