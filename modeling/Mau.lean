import Mau.Word
import Mau.HashMap
import Mau.Input
import Mau.Mutator
import Mau.Mutate
import Mau.TxnValue
import Mau.Runs
import Mau.Corpus
import Mau.Bridge
import Mau.Decompile.Select
import Mau.Decompile.Driver
import Mau.Decompile.Provenance
import Mau.Decompile.Spec
import Mau.Common.Regex
import Mau.Common.Consts
