import KnotSchema.Python.Value
import KnotSchema.Python.Dict
import KnotSchema.Schema.Descriptor
import KnotSchema.Schema.Validate
import KnotSchema.Schema.Steps
import KnotSchema.Schema.Fuel
import KnotSchema.Spec.Construction
import KnotSchema.Spec.FieldTags
import KnotSchema.Spec.Validation
import KnotSchema.Spec.Paths
import KnotSchema.Spec.Idempotence
import KnotSchema.Spec.Termination
import KnotSchema.Spec.Completeness
import KnotSchema.Spec.Acceptance
import KnotSchema.Spec.Typing
import KnotSchema.Statistics.Store
import KnotSchema.Statistics.Export
import KnotSchema.Statistics.Json
import KnotSchema.Statistics.Collect
