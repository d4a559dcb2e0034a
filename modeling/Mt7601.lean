import Mt7601.Lib.Run
import Mt7601.Lib.CircBuf
import Mt7601.Lib.SeqNum
import Mt7601.Lib.Octets
import Mt7601.Lib.Tlv
import Mt7601.Lib.Cipher
import Mt7601.Lib.Ccm
import Mt7601.Lib.Fips197
import Mt7601.Crypt.SoftAes
import Mt7601.Ba.Runs
import Mt7601.Ba.Pool
import Mt7601.Ba.Advance
import Mt7601.Ba.Accounting
import Mt7601.Wpa.KeyWrap
import Mt7601.Wpa.Reject
import Mt7601.Wpa.RoundTrip
import Mt7601.Data.Defrag
import Mt7601.Data.AmsduTx
import Mt7601.Data.RxRing
import Mt7601.Data.RxPort
import Mt7601.Data.RxOwner
import Mt7601.Data.FragmentRoundTrip
import Mt7601.Mlme.Queue
import Mt7601.Mlme.SsidTab
import Mt7601.Mlme.ScanTab
import Mt7601.Wsc.PinLock
import Mt7601.Wsc.Reassembly
import Mt7601.Wsc.FragmentLink
import Mt7601.Wsc.Commitments
import Mt7601.Crypt.SoftDecrypt
import Mt7601.Mat.Transparent
import Mt7601.Ap.GroupKeyRuns
import Mt7601.Ap.Disturbance
import Mt7601.P2p.AttributeBounds
import Mt7601.P2p.GoAgreement
import Mt7601.Data.PsBuffer
import Mt7601.Data.DeQueueRuns
import Mt7601.Ba.TidBounds
import Mt7601.Wpa.CheckRsnIe
import Mt7601.Wpa.KeyDataBounds
import Mt7601.Mlme.ProbeReq
import Mt7601.Wpa.KeyDerivation
import Mt7601.Wpa.MakeRsnIe
import Mt7601.P2p.AttributeRoundTrip
import Mt7601.Mgmt.MacTableRuns
import Mt7601.Igmp.Snooping
import Mt7601.Igmp.Joins
import Mt7601.Igmp.Records
import Mt7601.Mlme.NetworkType
import Mt7601.Mlme.SsidSort
import Mt7601.Mlme.SelectionCiphers
import Mt7601.Ba.Waiting
import Mt7601.Ba.WinSize
import Mt7601.Mlme.SuiteOrder
import Mt7601.Data.RssiSample
import Mt7601.Data.Aralink
import Mt7601.Lib.Limbs
import Mt7601.Crypt.BigInteger
import Mt7601.Wpa.ElementUnverified
import Mt7601.Wpa.FrameBounds
import Mt7601.Lib.LeWord
import Mt7601.Lib.Michael
import Mt7601.Crypt.MicValue
import Mt7601.Lib.Cmac
import Mt7601.Crypt.AesCmac
import Mt7601.Lib.Crc32
import Mt7601.Crypt.WepFrame
import Mt7601.Lib.Rfc3610
import Mt7601.Crypt.CcmFormat
import Mt7601.Lib.Cbc
import Mt7601.Crypt.AesCbc
import Mt7601.Crypt.BigIntegerBin
import Mt7601.Crypt.BigIntegerSquare
import Mt7601.Lib.Montgomery
import Mt7601.Crypt.Montgomery
import Mt7601.Lib.LongDivision
import Mt7601.Crypt.BigIntegerDiv
import Mt7601.Crypt.Md5Spec
import Mt7601.Crypt.Sha256
import Mt7601.Crypt.HashPieces
import Mt7601.Wsc.PeerList
import Mt7601.Wsc.PbcOverlap
import Mt7601.Lib.TextLines
import Mt7601.Profile.KeyParameter
import Mt7601.Lib.TlvWalk
import Mt7601.Wsc.Walkers
import Mt7601.Igmp.PktClone
import Mt7601.Igmp.Departures
import Mt7601.Wpa.PmkidCache
import Mt7601.Wpa.Retries
