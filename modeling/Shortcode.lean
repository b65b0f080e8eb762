import Shortcode.Main
import Shortcode.Proofs.Engine.Locality
import Shortcode.Proofs.Engine.Occurrences
import Shortcode.Proofs.Engine.Rescan
import Shortcode.Proofs.Markup.Frame
import Shortcode.Proofs.Expansion.Layout
import Shortcode.Proofs.Text.Words
import Shortcode.Proofs.Expansion.Supplied
import Shortcode.Proofs.Markup.Tidy
import Shortcode.Proofs.Tag.Begun
import Shortcode.Proofs.Engine.Forging
import Shortcode.Proofs.Markup.Links
import Shortcode.Proofs.Expansion.Links
import Shortcode.Proofs.Engine.ElementIds
import Shortcode.Proofs.Naming.Woven
import Shortcode.Proofs.Naming.Scan
import Shortcode.Proofs.Naming.Tags
import Shortcode.Proofs.Naming.Attributes
import Shortcode.Proofs.Naming.Expansions
import Shortcode.Proofs.Engine.Interchange
import Shortcode.Proofs.Engine.Unchanged
import Shortcode.Proofs.Engine.Rerendering
import Shortcode.Proofs.Engine.Effects
import Shortcode.Proofs.Text.Places
import Shortcode.Proofs.Expansion.WarningBlocks
import Shortcode.Proofs.Engine.WarningBlocks
import Shortcode.Proofs.Tag.Written
import Shortcode.Proofs.Engine.WrittenTags
import Shortcode.Proofs.Config.References
import Shortcode.Proofs.Config.Dollars
import Shortcode.Proofs.Config.Overrides
import Shortcode.Proofs.Config.Precedence
import Shortcode.Proofs.Command.Runs
import Shortcode.Proofs.Media.Urls
import Shortcode.Proofs.Engine.WrittenGroups
import Shortcode.Proofs.Engine.NestedButtons
import Shortcode.Proofs.Engine.Galleries
import Shortcode.Proofs.Media.Records
import Shortcode.Proofs.Media.Lookups
import Shortcode.Proofs.Engine.Escapers
import Shortcode.Proofs.Media.Trimming
import Shortcode.Proofs.Config.Discovery
import Shortcode.Proofs.Markup.Unescaping
import Shortcode.Proofs.Media.Joining
