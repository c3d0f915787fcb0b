import PathSieve.Builtin
import PathSieve.Event
import PathSieve.Exchange
import PathSieve.FileTree
import PathSieve.Glob.Basic
import PathSieve.Glob.Lemmas
import PathSieve.Glob.Piece
import PathSieve.Glob.Table
import PathSieve.IgnoreFile
import PathSieve.Json.Members
import PathSieve.Json.Reader
import PathSieve.Json.Scan
import PathSieve.Json.Value
import PathSieve.Matcher
import PathSieve.Number.Binary64
import PathSieve.Number.Shortest
import PathSieve.Path
import PathSieve.Path.Lemmas
import PathSieve.Pattern
import PathSieve.Proofs.Exchange.Members
import PathSieve.Proofs.Glob.Characters
import PathSieve.Proofs.Glob.Components
import PathSieve.Proofs.Glob.Literal
import PathSieve.Proofs.Glob.Reading
import PathSieve.Proofs.IgnoreFile.Loading
import PathSieve.Proofs.IgnoreFile.Log
import PathSieve.Proofs.IgnoreFile.Writing
import PathSieve.Proofs.Path.Canonical
import PathSieve.Proofs.Path.Slices
import PathSieve.Proofs.Pattern.Bare
import PathSieve.Proofs.Pattern.Marking
import PathSieve.Proofs.Pattern.Parsing
import PathSieve.Proofs.Rule.FromRoot
import PathSieve.Proofs.Rule.Matching
import PathSieve.Proofs.Rule.Names
import PathSieve.Proofs.Rule.OneByte
import PathSieve.Proofs.Rule.Reading
import PathSieve.Proofs.Rule.Subtree
import PathSieve.Proofs.Rule.Verbatim
import PathSieve.Proofs.Rulebook.Composition
import PathSieve.Proofs.Rulebook.FileName
import PathSieve.Proofs.Rulebook.Log
import PathSieve.Proofs.Rulebook.Polarity
import PathSieve.Proofs.Rulebook.Precedence
import PathSieve.Proofs.Rulebook.Provenance
import PathSieve.Proofs.Rulebook.Rearrangement
import PathSieve.Proofs.Session.Slots
import PathSieve.Proofs.Sieve.Bytes
import PathSieve.Proofs.Sieve.Keeping
import PathSieve.Rule
import PathSieve.Rulebook
import PathSieve.Session
import PathSieve.Settings
import PathSieve.Settings.Reader
import PathSieve.Sieve
import PathSieve.Text.Blank
import PathSieve.Text.Hidden
import PathSieve.Text.Quoted
import PathSieve.Text.Split
import PathSieve.Text.Utf8
import PathSieve.Text.Utf8.Lemmas
import PathSieve.Text.Utf8.Lenient
