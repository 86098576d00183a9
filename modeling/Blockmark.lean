import Blockmark.Converter
import Blockmark.Settings.Loader
import Blockmark.Proofs.Import.WellFormed
import Blockmark.Proofs.Forest.RoundTrip
import Blockmark.Proofs.Render.Plan
import Blockmark.Proofs.Mention.Coverage
import Blockmark.Proofs.Render.Shown
import Blockmark.Proofs.Converter.Session
import Blockmark.Proofs.Forest.Entries
import Blockmark.Proofs.Render.Outline
import Blockmark.Proofs.Render.Unguarded
import Blockmark.Proofs.Render.Labels
import Blockmark.Proofs.Render.Transparency
import Blockmark.Proofs.Import.Exposed
import Blockmark.Proofs.Import.Planted
import Blockmark.Proofs.Import.Truncation
import Blockmark.Proofs.Text.Sheet
import Blockmark.Proofs.Forest.Preorder
import Blockmark.Proofs.Render.Carrying
import Blockmark.Proofs.Render.Prose
import Blockmark.Proofs.Inline.Text
import Blockmark.Proofs.Import.Text
import Blockmark.Proofs.Render.Once
import Blockmark.Proofs.Forest.Likeness
import Blockmark.Proofs.Render.Likeness
import Blockmark.Proofs.Render.Renaming
import Blockmark.Proofs.Render.Dangling
import Blockmark.Proofs.Import.Grids
import Blockmark.Proofs.Inline.Plain
import Blockmark.Proofs.Import.Tables
import Blockmark.Proofs.Import.Append
import Blockmark.Proofs.Import.Ordinals
import Blockmark.Proofs.Inline.Depth
import Blockmark.Proofs.Render.Settings
import Blockmark.Proofs.Text.Inked
import Blockmark.Proofs.Render.Table
import Blockmark.Proofs.Link.References
import Blockmark.Proofs.Settings.Precedence
import Blockmark.Proofs.Settings.Variables
import Blockmark.Proofs.Mention.Reach
import Blockmark.Proofs.Forest.LeafTexts
import Blockmark.Proofs.Inline.Cut
import Blockmark.Proofs.Import.Cut
import Blockmark.Proofs.Import.Parts
import Blockmark.Proofs.Text.Rows
import Blockmark.Proofs.Render.Containers
import Blockmark.Proofs.Inline.Brackets
import Blockmark.Proofs.Inline.Canonical
import Blockmark.Proofs.Render.Numbers
import Blockmark.Proofs.Render.Paragraphs
import Blockmark.Proofs.Inline.Wrapping
import Blockmark.Proofs.Import.Admonition
import Blockmark.Proofs.Link.Target
import Blockmark.Proofs.Inline.Autolinks
import Blockmark.Proofs.Forest.Arena
import Blockmark.Proofs.Table.Reassembly
import Blockmark.Proofs.Render.Fences
