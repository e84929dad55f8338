import DamlBindings.Codegen.CommandMethods
import DamlBindings.Codegen.EmittedPaths
import DamlBindings.Codegen.FaithfulTypes
import DamlBindings.Codegen.Generics
import DamlBindings.Codegen.Layouts
import DamlBindings.Codegen.Payloads
import DamlBindings.Codegen.PhantomParams
import DamlBindings.Codegen.RenderSafe
import DamlBindings.Codegen.SeparateFiles
import DamlBindings.Derive.AttrChoice
import DamlBindings.Derive.SameDefinition
import DamlBindings.Derive.SameTemplate
import DamlBindings.Grpc.OwnShape
import DamlBindings.Grpc.SerializeRoundTrip
import DamlBindings.Grpc.TimeUtil
import DamlBindings.Grpc.TypedContract
import DamlBindings.Grpc.Updates
import DamlBindings.Grpc.WireAccept
import DamlBindings.Grpc.WireRoundTrip
import DamlBindings.Lf.ArchiveName
import DamlBindings.Lf.DataIdentity
import DamlBindings.Lf.ExpandInterned
import DamlBindings.Lf.ExprReferences
import DamlBindings.Lf.FromFile
import DamlBindings.Lf.Integrity
import DamlBindings.Lf.LegacyDar
import DamlBindings.Lf.ManifestLines
import DamlBindings.Lf.ManifestRoundTrip
import DamlBindings.Lf.ModuleOrder
import DamlBindings.Lf.NameLookup
import DamlBindings.Lf.SortedVisit
import DamlBindings.Lf.TemplateJoin
import DamlBindings.Lf.ValidateType
import DamlBindings.Macro.PathAddress
import DamlBindings.Util.SearchEnds
