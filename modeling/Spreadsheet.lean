import Spreadsheet.Calculation.Calculate
import Spreadsheet.SheetJson
import Spreadsheet.Proofs.Mentions
import Spreadsheet.Proofs.Records
import Spreadsheet.Proofs.Tallies
import Spreadsheet.Proofs.FunctionalGraph
import Spreadsheet.Proofs.References
import Spreadsheet.Proofs.Renumbering
import Spreadsheet.Proofs.Lockstep
import Spreadsheet.Proofs.Workbook
import Spreadsheet.Proofs.Depth
import Spreadsheet.Proofs.Blanks
import Spreadsheet.Proofs.Parsing
import Spreadsheet.Proofs.CellFormulas
import Spreadsheet.Proofs.DateRecognition
import Spreadsheet.Proofs.Chains
import Spreadsheet.Proofs.JsonSheets
import Spreadsheet.Proofs.GridIndexes
import Spreadsheet.Proofs.Overflow
import Spreadsheet.Proofs.Spaceless
import Spreadsheet.Proofs.Lookups
import Spreadsheet.Proofs.Searching
import Spreadsheet.Proofs.ClosestKeys
import Spreadsheet.Proofs.EqualityCriteria
import Spreadsheet.Proofs.TableLookups
import Spreadsheet.Proofs.MisalignedRanges
import Spreadsheet.Proofs.RolledParts
import Spreadsheet.Proofs.DateLibrary
import Spreadsheet.Proofs.MonthShifts
import Spreadsheet.Proofs.DateDistances
import Spreadsheet.Proofs.Weekdays
import Spreadsheet.Proofs.WholeRounding
import Spreadsheet.Proofs.NumberTexts
import Spreadsheet.Proofs.Substitution
import Spreadsheet.Proofs.Finding
import Spreadsheet.Proofs.Repetition
import Spreadsheet.Proofs.Approximations
import Spreadsheet.Proofs.Amounts
import Spreadsheet.Proofs.Remainders
import Spreadsheet.Proofs.NegativeZeros
import Spreadsheet.Proofs.RangeWalks
import Spreadsheet.Proofs.ColumnLetters
import Spreadsheet.Proofs.Modes
import Spreadsheet.Proofs.CollectedNumbers
import Spreadsheet.Proofs.SheetNames
import Spreadsheet.Proofs.BalancedBooks
