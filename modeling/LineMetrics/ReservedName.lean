/-!
# Reserved names

The measurement, tag and field names that carry meaning of their own.
-/

namespace LineMetrics
namespace ReservedName

/-- The tag with the name of the instrumentation scope. -/
def scopeName : String := "otel.library.name"

/-- The tag with the version of the instrumentation scope. -/
def scopeVersion : String := "otel.library.version"

/-- The field with the value of a gauge. -/
def gauge : String := "gauge"

/-- The field with the value of a counter. -/
def counter : String := "counter"

/-- The field with the number of observations of a distribution. -/
def count : String := "count"

/-- The field with the sum of the observations of a distribution. -/
def sum : String := "sum"

/-- The field with the start time of a counter. -/
def startTime : String := "start_time"

/-- The tag that selects the temporality of a counter. -/
def temporality : String := "temporality"

/-- The value of the temporality tag that selects delta temporality. -/
def delta : String := "delta"

/-- The measurement of every sliced point. -/
def prometheus : String := "prometheus"

/-- The tag with the upper bound of a bucket. -/
def bucketBound : String := "le"

/-- The tag with a quantile. -/
def quantile : String := "quantile"

/-- The ending of a field with the count of one bucket. -/
def bucketEnding : String := "_bucket"

/-- The ending of a field with the number of observations. -/
def countEnding : String := "_count"

/-- The ending of a field with the sum of the observations. -/
def sumEnding : String := "_sum"

/-- The bound of the bucket that holds every observation. -/
def infiniteBound : String := "+Inf"

end ReservedName
end LineMetrics
