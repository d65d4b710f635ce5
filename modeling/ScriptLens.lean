import ScriptLens.Completion.Item
import ScriptLens.Completion.Path
import ScriptLens.Completion.Resolve
import ScriptLens.Decimal.Shortest
import ScriptLens.Document
import ScriptLens.FileTree
import ScriptLens.Foreign.Declaration
import ScriptLens.Foreign.Index
import ScriptLens.Game
import ScriptLens.Json.Number
import ScriptLens.Json.Value
import ScriptLens.Localization.Language
import ScriptLens.Localization.Reference
import ScriptLens.Localization.Texts
import ScriptLens.Markup.Cursor
import ScriptLens.Markup.Entity
import ScriptLens.Markup.Event
import ScriptLens.Markup.Fault
import ScriptLens.Markup.Lexeme
import ScriptLens.Markup.Name
import ScriptLens.Markup.Token
import ScriptLens.OrderedMap
import ScriptLens.Proofs.Document.Editing
import ScriptLens.Proofs.Document.Position
import ScriptLens.Proofs.OrderedMap
import ScriptLens.Proofs.Grouping
import ScriptLens.Proofs.Markup.Report
import ScriptLens.Proofs.Markup.Scanning
import ScriptLens.Proofs.Markup.Tree
import ScriptLens.Proofs.Markup.Written
import ScriptLens.Proofs.Script.Piece
import ScriptLens.Proofs.Script.Place
import ScriptLens.Proofs.Script.Reference
import ScriptLens.Proofs.Script.Renaming
import ScriptLens.Proofs.Script.TableRenaming
import ScriptLens.Proofs.Script.TreeRenaming
import ScriptLens.Proofs.Script.TreeVariables
import ScriptLens.Proofs.Session.Freshness
import ScriptLens.Proofs.Session.History
import ScriptLens.Proofs.Session.Renaming
import ScriptLens.Proofs.Text
import ScriptLens.Schema.Entry
import ScriptLens.Schema.Hover
import ScriptLens.Schema.Index
import ScriptLens.Schema.Reading
import ScriptLens.Schema.Selector
import ScriptLens.Script.Dialect
import ScriptLens.Script.Variable
import ScriptLens.Script.VariableTable
import ScriptLens.Session.Basic
import ScriptLens.Session.Query
import ScriptLens.Session.Server
import ScriptLens.Session.Workspace
import ScriptLens.Settings.Basic
import ScriptLens.Settings.Reading
import ScriptLens.Text.Basic
import ScriptLens.Text.Class
import ScriptLens.Text.Column
import ScriptLens.Text.Lowercase
import ScriptLens.Text.Numeral
import ScriptLens.Text.Quoted
import ScriptLens.Text.Template
import ScriptLens.Types.Expansion
import ScriptLens.Types.Registry
import ScriptLens.Unicode.Age
import ScriptLens.Unicode.Alphabetic
import ScriptLens.Unicode.Case
import ScriptLens.Unicode.Mark
import ScriptLens.Unicode.Numeric
import ScriptLens.Unicode.Printable
import ScriptLens.Unicode.Ranges
import ScriptLens.Unicode.Separator
import ScriptLens.Proofs.Types.Enumeration
import ScriptLens.Proofs.Markup.Attributes
import ScriptLens.Proofs.Script.Separation
import ScriptLens.Proofs.Script.Lookup
import ScriptLens.Proofs.Session.Requests
import ScriptLens.Proofs.Session.Isolation
import ScriptLens.Proofs.Session.Effects
import ScriptLens.Proofs.Session.Readiness
import ScriptLens.Proofs.Schema.Reading
import ScriptLens.Proofs.Schema.Writing
import ScriptLens.Proofs.Markup.Escaping
import ScriptLens.Proofs.Markup.Layout
import ScriptLens.Proofs.Schema.Selection
import ScriptLens.Proofs.Markup.Opening
import ScriptLens.Proofs.Script.QuoteChoice
import ScriptLens.Proofs.Markup.Hole
import ScriptLens.Proofs.Markup.StrayClosing
import ScriptLens.Proofs.Script.Insertion
import ScriptLens.Proofs.Script.StrayClosing
import ScriptLens.Proofs.Markup.Spelling
import ScriptLens.Proofs.Markup.Recovery
import ScriptLens.Proofs.Markup.TagPlace
import ScriptLens.Proofs.Document.Line
import ScriptLens.Proofs.Document.Slicing
import ScriptLens.Proofs.Types.Declared
import ScriptLens.Proofs.Schema.Registration
import ScriptLens.Proofs.Trimming
import ScriptLens.Proofs.Localization.Limiting
import ScriptLens.Proofs.Localization.LanguageDocument
import ScriptLens.Proofs.Localization.Shown
import ScriptLens.Proofs.Foreign.Words
import ScriptLens.Proofs.Foreign.Written
import ScriptLens.Proofs.Foreign.Block
import ScriptLens.Proofs.Foreign.Adding
import ScriptLens.Proofs.Foreign.Source
import ScriptLens.Proofs.Foreign.Marking
import ScriptLens.Proofs.Completion.Angles
import ScriptLens.Proofs.Schema.TypeReference
import ScriptLens.Proofs.Script.TrackerRenaming
import ScriptLens.Proofs.Schema.SelectorPlaces
import ScriptLens.Proofs.Schema.SelectorWriting
import ScriptLens.Proofs.Script.TrackerHistory
import ScriptLens.Proofs.Schema.HoverPath
import ScriptLens.Proofs.Ordering
import ScriptLens.Proofs.Schema.WordSections
import ScriptLens.Proofs.Ends
import ScriptLens.Proofs.Schema.PathShortening
import ScriptLens.Proofs.Schema.DefinitionPlace
import ScriptLens.Proofs.Document.Run
import ScriptLens.Proofs.Session.DefinitionLookup
import ScriptLens.Proofs.Numeral
import ScriptLens.Proofs.Completion.Path
import ScriptLens.Proofs.Localization.Insertions
import ScriptLens.Proofs.Template
import ScriptLens.Proofs.Localization.ReferencePlaces
import ScriptLens.Proofs.Schema.HoverTarget
import ScriptLens.Proofs.Document.Column
import ScriptLens.Proofs.Settings.Reading
