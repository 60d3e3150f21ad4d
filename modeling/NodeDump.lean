import NodeDump.Dump
import NodeDump.Lexeme.Language
import NodeDump.Main
import NodeDump.Scan
import NodeDump.Session
import NodeDump.Proofs.Lexeme.NumberList
import NodeDump.Proofs.Lexeme.Atom
import NodeDump.Proofs.Lexeme.Munch
import NodeDump.Proofs.Scan.Basic
import NodeDump.Proofs.Scan.Ahead
import NodeDump.Proofs.Scan.Spelling
import NodeDump.Proofs.Printer.Step
import NodeDump.Proofs.Dump.Words
import NodeDump.Proofs.Dump.Ending
import NodeDump.Proofs.Printer.Spine
import NodeDump.Proofs.Printer.Value
import NodeDump.Proofs.Printer.Layout
import NodeDump.Proofs.Printer.Progress
import NodeDump.Proofs.Format.Dumps
import NodeDump.Proofs.Format.Kept
import NodeDump.Proofs.Format.Misplaced
import NodeDump.Proofs.Lexeme.Longest
import NodeDump.Proofs.Scan.Passage
import NodeDump.Proofs.Scan.Division
import NodeDump.Proofs.Scan.Munched
import NodeDump.Proofs.Session.Value
import NodeDump.Proofs.Printer.Written
import NodeDump.Proofs.Session.Follows
import NodeDump.Proofs.Printer.Limit
import NodeDump.Proofs.Format.Limit
import NodeDump.Proofs.Scan.Joined
import NodeDump.Proofs.Printer.Placeless
import NodeDump.Proofs.Scan.Respaced
import NodeDump.Proofs.Format.Respaced
import NodeDump.Proofs.Printer.Enclosing
import NodeDump.Proofs.Printer.Arrangement
import NodeDump.Proofs.Printer.Placement
import NodeDump.Proofs.Scan.Places
import NodeDump.Proofs.Format.Arranged
import NodeDump.Proofs.Format.Again
import NodeDump.Proofs.Command.Stable
import NodeDump.Proofs.Scan.Counted
import NodeDump.Proofs.Session.Counted
import NodeDump.Proofs.Printer.Balance
import NodeDump.Proofs.Session.Balance
import NodeDump.Proofs.Format.Faithful
import NodeDump.Proofs.Printer.Rendered
import NodeDump.Proofs.Printer.Inset
import NodeDump.Proofs.Format.Inset
import NodeDump.Proofs.Session.Stuck
import NodeDump.Proofs.Scan.Midway
import NodeDump.Proofs.Scan.Moves
import NodeDump.Proofs.Session.Series
import NodeDump.Proofs.Lexeme.Newline
import NodeDump.Proofs.Command.Newline
import NodeDump.Proofs.Format.Literal
import NodeDump.Proofs.Lexeme.TokenPattern
