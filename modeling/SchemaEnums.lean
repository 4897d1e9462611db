import SchemaEnums.Main
import SchemaEnums.Proofs.FileSystem.Entries
import SchemaEnums.Proofs.Discovery.Policies
import SchemaEnums.Proofs.Discovery.Tree
import SchemaEnums.Proofs.Extraction.Visits
import SchemaEnums.Proofs.FileSystem.Replacing
import SchemaEnums.Proofs.Generator.AllOrNothing
import SchemaEnums.Proofs.Generator.Written
import SchemaEnums.Proofs.Duplicate
import SchemaEnums.Proofs.Generator.Failing
import SchemaEnums.Proofs.Declaration.Decoding
import SchemaEnums.Proofs.FileSystem.OneEntry
import SchemaEnums.Proofs.Discovery.OneEntry
import SchemaEnums.Proofs.Generator.Frame
import SchemaEnums.Proofs.FileSystem.Temporary
import SchemaEnums.Proofs.Generator.Repeated
import SchemaEnums.Proofs.Declaration.Headers
import SchemaEnums.Proofs.Generator.NamePolicies
import SchemaEnums.Proofs.Generator.HeaderCount
import SchemaEnums.Proofs.CommandLine.Arrangement
import SchemaEnums.Proofs.CommandLine.Execution
import SchemaEnums.Proofs.Extraction.Agreement
import SchemaEnums.Proofs.Extraction.Declared
import SchemaEnums.Proofs.Pointer
import SchemaEnums.Proofs.Schema.Defects
import SchemaEnums.Proofs.Extraction.Pointers
import SchemaEnums.Proofs.Extraction.Reported
import SchemaEnums.Proofs.Extraction.Pruning
import SchemaEnums.Proofs.Json.Numeral
import SchemaEnums.Proofs.Json.Reading
import SchemaEnums.Proofs.InRow
import SchemaEnums.Proofs.Json.RoundTrip
import SchemaEnums.Proofs.Loading.Printed
import SchemaEnums.Proofs.Duplicate.Grouping
import SchemaEnums.Proofs.Declaration.Separation
import SchemaEnums.Proofs.Json.RepeatedKeys
import SchemaEnums.Proofs.Extraction.RepeatedProperties
import SchemaEnums.Proofs.Path.Components
import SchemaEnums.Proofs.Generator.ChildPath
import SchemaEnums.Proofs.Discovery.FileNames
import SchemaEnums.Proofs.Script.StringLiteral
import SchemaEnums.Proofs.Declaration.Literals
import SchemaEnums.Proofs.Extraction.Nesting
