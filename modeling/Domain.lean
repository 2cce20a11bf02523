import Domain.Base.Iana
import Domain.NewName.Label
import Domain.NewName.Uncertain
import Domain.NewName.LabelBuf
import Domain.NewName.Affix
import Domain.NewName.Canonical
import Domain.NewName.NameBuf
import Domain.Xfr.Batcher
import Domain.Xfr.Axfr
import Domain.Xfr.Ixfr
import Domain.Xfr.Preprocess
import Domain.Validator.Types
import Domain.Validator.Context
import Domain.Validator.Anchor
import Domain.Validator.Delegation
import Domain.Validator.Nsec3Cover
import Domain.Validator.Walk
import Domain.Validator.SigChecks
import Domain.Validator.Chain
import Domain.Validator.Message
import Domain.Validate.PublicKey
import Domain.Validate.KeyEq
import Domain.Validate.SignedData
import Domain.Rdata.Unknown
import Domain.Net.Cookies
import Domain.Net.CookiesMiddleware
import Domain.Parser.Avx2
import Domain.Parser.Masks
import Domain.Parser.Segment
import Domain.Parser.Lex
