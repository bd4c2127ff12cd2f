import FlowDoc.Main
import FlowDoc.Proofs.Text.Flow
import FlowDoc.Proofs.Xaml.Phrase
import FlowDoc.Proofs.Xaml.Reception
import FlowDoc.Proofs.Xaml.Building
import FlowDoc.CommandLine.Directory
import FlowDoc.Xaml.Script
import FlowDoc.Proofs.Xaml.Draft
import FlowDoc.Proofs.Xaml.Operation
import FlowDoc.Proofs.Xaml.Outcome
import FlowDoc.Proofs.Xaml.Run
import FlowDoc.Proofs.Xaml.Stream
import FlowDoc.Proofs.Xaml.Collection
import FlowDoc.Proofs.Render.Translation
import FlowDoc.Proofs.Render.Filling
import FlowDoc.Proofs.Render.Simulation
import FlowDoc.Proofs.Xaml.Printing
import FlowDoc.Proofs.Text.Ink
import FlowDoc.Proofs.Render.VisibleText
import FlowDoc.Proofs.Render.Composed
import FlowDoc.Proofs.Render.Ending
import FlowDoc.Proofs.Render.Frame
import FlowDoc.Proofs.Render.Mirror
import FlowDoc.Proofs.Render.Safety
import FlowDoc.Proofs.Render.Failure
import FlowDoc.Proofs.Markdown.Reading
import FlowDoc.Proofs.Format.Conversion
import FlowDoc.Proofs.Markdown.Content
import FlowDoc.Proofs.Render.Spelling
import FlowDoc.Proofs.Xaml.Tidy
import FlowDoc.Proofs.Render.Nesting
import FlowDoc.Proofs.Xaml.Recording
import FlowDoc.Proofs.Xaml.Sink
import FlowDoc.Proofs.Xaml.State
import FlowDoc.Proofs.Xaml.Atomicity
import FlowDoc.Proofs.Render.ContentModel
import FlowDoc.Proofs.Xaml.Values
import FlowDoc.Proofs.Xaml.Extension
import FlowDoc.Proofs.Render.Space
import FlowDoc.Proofs.Render.Theming
import FlowDoc.Proofs.Render.Fallback
import FlowDoc.Proofs.Xml.Legal
import FlowDoc.Proofs.Xaml.Legal
import FlowDoc.Proofs.Render.Plain
import FlowDoc.Proofs.Render.Printed
import FlowDoc.Proofs.Render.Legality
import FlowDoc.Proofs.Xml.Name
import FlowDoc.Proofs.Render.Prefixes
import FlowDoc.Proofs.Xml.Tag
import FlowDoc.Proofs.Xml.Run
import FlowDoc.Proofs.Xml.Layout
import FlowDoc.Proofs.Xaml.Layout
import FlowDoc.Proofs.Text.Lines
import FlowDoc.Proofs.Text.Words
import FlowDoc.Proofs.Xaml.Normalization
import FlowDoc.Proofs.Xaml.MemberText
import FlowDoc.Proofs.Render.Code
import FlowDoc.Proofs.Config.StyleOrder
import FlowDoc.Proofs.CommandLine.LastExtra
import FlowDoc.Proofs.Render.Replaying
import FlowDoc.Proofs.Uri.Usable
import FlowDoc.Proofs.CommandLine.Parting
import FlowDoc.Proofs.Config.TextField
import FlowDoc.Proofs.CommandLine.TextSetting
import FlowDoc.Proofs.Format.Detection
import FlowDoc.Proofs.Xaml.Kept
import FlowDoc.Proofs.Render.Listing
