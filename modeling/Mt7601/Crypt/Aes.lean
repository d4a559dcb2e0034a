/-
# The AES block cipher

The block cipher of `common/crypt_aes.c` for keys of 16 octets, which is what the EAPOL-Key code
calls it with: key expansion, encryption and decryption over the source's tables, and the theorem
that the second undoes the first.
-/
import Mt7601.Lib.Cipher
import Mt7601.Lib.Octets

namespace Mt7601.Crypt

/-! ## 1. The tables -/

def aesSboxEnc : List UInt8 :=
  [0x63, 0x7c, 0x77, 0x7b, 0xf2, 0x6b, 0x6f, 0xc5, 0x30, 0x01, 0x67, 0x2b, 0xfe, 0xd7, 0xab, 0x76,
    0xca, 0x82, 0xc9, 0x7d, 0xfa, 0x59, 0x47, 0xf0, 0xad, 0xd4, 0xa2, 0xaf, 0x9c, 0xa4, 0x72, 0xc0,
    0xb7, 0xfd, 0x93, 0x26, 0x36, 0x3f, 0xf7, 0xcc, 0x34, 0xa5, 0xe5, 0xf1, 0x71, 0xd8, 0x31, 0x15,
    0x04, 0xc7, 0x23, 0xc3, 0x18, 0x96, 0x05, 0x9a, 0x07, 0x12, 0x80, 0xe2, 0xeb, 0x27, 0xb2, 0x75,
    0x09, 0x83, 0x2c, 0x1a, 0x1b, 0x6e, 0x5a, 0xa0, 0x52, 0x3b, 0xd6, 0xb3, 0x29, 0xe3, 0x2f, 0x84,
    0x53, 0xd1, 0x00, 0xed, 0x20, 0xfc, 0xb1, 0x5b, 0x6a, 0xcb, 0xbe, 0x39, 0x4a, 0x4c, 0x58, 0xcf,
    0xd0, 0xef, 0xaa, 0xfb, 0x43, 0x4d, 0x33, 0x85, 0x45, 0xf9, 0x02, 0x7f, 0x50, 0x3c, 0x9f, 0xa8,
    0x51, 0xa3, 0x40, 0x8f, 0x92, 0x9d, 0x38, 0xf5, 0xbc, 0xb6, 0xda, 0x21, 0x10, 0xff, 0xf3, 0xd2,
    0xcd, 0x0c, 0x13, 0xec, 0x5f, 0x97, 0x44, 0x17, 0xc4, 0xa7, 0x7e, 0x3d, 0x64, 0x5d, 0x19, 0x73,
    0x60, 0x81, 0x4f, 0xdc, 0x22, 0x2a, 0x90, 0x88, 0x46, 0xee, 0xb8, 0x14, 0xde, 0x5e, 0x0b, 0xdb,
    0xe0, 0x32, 0x3a, 0x0a, 0x49, 0x06, 0x24, 0x5c, 0xc2, 0xd3, 0xac, 0x62, 0x91, 0x95, 0xe4, 0x79,
    0xe7, 0xc8, 0x37, 0x6d, 0x8d, 0xd5, 0x4e, 0xa9, 0x6c, 0x56, 0xf4, 0xea, 0x65, 0x7a, 0xae, 0x08,
    0xba, 0x78, 0x25, 0x2e, 0x1c, 0xa6, 0xb4, 0xc6, 0xe8, 0xdd, 0x74, 0x1f, 0x4b, 0xbd, 0x8b, 0x8a,
    0x70, 0x3e, 0xb5, 0x66, 0x48, 0x03, 0xf6, 0x0e, 0x61, 0x35, 0x57, 0xb9, 0x86, 0xc1, 0x1d, 0x9e,
    0xe1, 0xf8, 0x98, 0x11, 0x69, 0xd9, 0x8e, 0x94, 0x9b, 0x1e, 0x87, 0xe9, 0xce, 0x55, 0x28, 0xdf,
    0x8c, 0xa1, 0x89, 0x0d, 0xbf, 0xe6, 0x42, 0x68, 0x41, 0x99, 0x2d, 0x0f, 0xb0, 0x54, 0xbb, 0x16]

def aesSboxDec : List UInt8 :=
  [0x52, 0x09, 0x6a, 0xd5, 0x30, 0x36, 0xa5, 0x38, 0xbf, 0x40, 0xa3, 0x9e, 0x81, 0xf3, 0xd7, 0xfb,
    0x7c, 0xe3, 0x39, 0x82, 0x9b, 0x2f, 0xff, 0x87, 0x34, 0x8e, 0x43, 0x44, 0xc4, 0xde, 0xe9, 0xcb,
    0x54, 0x7b, 0x94, 0x32, 0xa6, 0xc2, 0x23, 0x3d, 0xee, 0x4c, 0x95, 0x0b, 0x42, 0xfa, 0xc3, 0x4e,
    0x08, 0x2e, 0xa1, 0x66, 0x28, 0xd9, 0x24, 0xb2, 0x76, 0x5b, 0xa2, 0x49, 0x6d, 0x8b, 0xd1, 0x25,
    0x72, 0xf8, 0xf6, 0x64, 0x86, 0x68, 0x98, 0x16, 0xd4, 0xa4, 0x5c, 0xcc, 0x5d, 0x65, 0xb6, 0x92,
    0x6c, 0x70, 0x48, 0x50, 0xfd, 0xed, 0xb9, 0xda, 0x5e, 0x15, 0x46, 0x57, 0xa7, 0x8d, 0x9d, 0x84,
    0x90, 0xd8, 0xab, 0x00, 0x8c, 0xbc, 0xd3, 0x0a, 0xf7, 0xe4, 0x58, 0x05, 0xb8, 0xb3, 0x45, 0x06,
    0xd0, 0x2c, 0x1e, 0x8f, 0xca, 0x3f, 0x0f, 0x02, 0xc1, 0xaf, 0xbd, 0x03, 0x01, 0x13, 0x8a, 0x6b,
    0x3a, 0x91, 0x11, 0x41, 0x4f, 0x67, 0xdc, 0xea, 0x97, 0xf2, 0xcf, 0xce, 0xf0, 0xb4, 0xe6, 0x73,
    0x96, 0xac, 0x74, 0x22, 0xe7, 0xad, 0x35, 0x85, 0xe2, 0xf9, 0x37, 0xe8, 0x1c, 0x75, 0xdf, 0x6e,
    0x47, 0xf1, 0x1a, 0x71, 0x1d, 0x29, 0xc5, 0x89, 0x6f, 0xb7, 0x62, 0x0e, 0xaa, 0x18, 0xbe, 0x1b,
    0xfc, 0x56, 0x3e, 0x4b, 0xc6, 0xd2, 0x79, 0x20, 0x9a, 0xdb, 0xc0, 0xfe, 0x78, 0xcd, 0x5a, 0xf4,
    0x1f, 0xdd, 0xa8, 0x33, 0x88, 0x07, 0xc7, 0x31, 0xb1, 0x12, 0x10, 0x59, 0x27, 0x80, 0xec, 0x5f,
    0x60, 0x51, 0x7f, 0xa9, 0x19, 0xb5, 0x4a, 0x0d, 0x2d, 0xe5, 0x7a, 0x9f, 0x93, 0xc9, 0x9c, 0xef,
    0xa0, 0xe0, 0x3b, 0x4d, 0xae, 0x2a, 0xf5, 0xb0, 0xc8, 0xeb, 0xbb, 0x3c, 0x83, 0x53, 0x99, 0x61,
    0x17, 0x2b, 0x04, 0x7e, 0xba, 0x77, 0xd6, 0x26, 0xe1, 0x69, 0x14, 0x63, 0x55, 0x21, 0x0c, 0x7d]

def aesMul2 : List UInt8 :=
  [0x00, 0x02, 0x04, 0x06, 0x08, 0x0a, 0x0c, 0x0e, 0x10, 0x12, 0x14, 0x16, 0x18, 0x1a, 0x1c, 0x1e,
    0x20, 0x22, 0x24, 0x26, 0x28, 0x2a, 0x2c, 0x2e, 0x30, 0x32, 0x34, 0x36, 0x38, 0x3a, 0x3c, 0x3e,
    0x40, 0x42, 0x44, 0x46, 0x48, 0x4a, 0x4c, 0x4e, 0x50, 0x52, 0x54, 0x56, 0x58, 0x5a, 0x5c, 0x5e,
    0x60, 0x62, 0x64, 0x66, 0x68, 0x6a, 0x6c, 0x6e, 0x70, 0x72, 0x74, 0x76, 0x78, 0x7a, 0x7c, 0x7e,
    0x80, 0x82, 0x84, 0x86, 0x88, 0x8a, 0x8c, 0x8e, 0x90, 0x92, 0x94, 0x96, 0x98, 0x9a, 0x9c, 0x9e,
    0xa0, 0xa2, 0xa4, 0xa6, 0xa8, 0xaa, 0xac, 0xae, 0xb0, 0xb2, 0xb4, 0xb6, 0xb8, 0xba, 0xbc, 0xbe,
    0xc0, 0xc2, 0xc4, 0xc6, 0xc8, 0xca, 0xcc, 0xce, 0xd0, 0xd2, 0xd4, 0xd6, 0xd8, 0xda, 0xdc, 0xde,
    0xe0, 0xe2, 0xe4, 0xe6, 0xe8, 0xea, 0xec, 0xee, 0xf0, 0xf2, 0xf4, 0xf6, 0xf8, 0xfa, 0xfc, 0xfe,
    0x1b, 0x19, 0x1f, 0x1d, 0x13, 0x11, 0x17, 0x15, 0x0b, 0x09, 0x0f, 0x0d, 0x03, 0x01, 0x07, 0x05,
    0x3b, 0x39, 0x3f, 0x3d, 0x33, 0x31, 0x37, 0x35, 0x2b, 0x29, 0x2f, 0x2d, 0x23, 0x21, 0x27, 0x25,
    0x5b, 0x59, 0x5f, 0x5d, 0x53, 0x51, 0x57, 0x55, 0x4b, 0x49, 0x4f, 0x4d, 0x43, 0x41, 0x47, 0x45,
    0x7b, 0x79, 0x7f, 0x7d, 0x73, 0x71, 0x77, 0x75, 0x6b, 0x69, 0x6f, 0x6d, 0x63, 0x61, 0x67, 0x65,
    0x9b, 0x99, 0x9f, 0x9d, 0x93, 0x91, 0x97, 0x95, 0x8b, 0x89, 0x8f, 0x8d, 0x83, 0x81, 0x87, 0x85,
    0xbb, 0xb9, 0xbf, 0xbd, 0xb3, 0xb1, 0xb7, 0xb5, 0xab, 0xa9, 0xaf, 0xad, 0xa3, 0xa1, 0xa7, 0xa5,
    0xdb, 0xd9, 0xdf, 0xdd, 0xd3, 0xd1, 0xd7, 0xd5, 0xcb, 0xc9, 0xcf, 0xcd, 0xc3, 0xc1, 0xc7, 0xc5,
    0xfb, 0xf9, 0xff, 0xfd, 0xf3, 0xf1, 0xf7, 0xf5, 0xeb, 0xe9, 0xef, 0xed, 0xe3, 0xe1, 0xe7, 0xe5]

def aesMul3 : List UInt8 :=
  [0x00, 0x03, 0x06, 0x05, 0x0c, 0x0f, 0x0a, 0x09, 0x18, 0x1b, 0x1e, 0x1d, 0x14, 0x17, 0x12, 0x11,
    0x30, 0x33, 0x36, 0x35, 0x3c, 0x3f, 0x3a, 0x39, 0x28, 0x2b, 0x2e, 0x2d, 0x24, 0x27, 0x22, 0x21,
    0x60, 0x63, 0x66, 0x65, 0x6c, 0x6f, 0x6a, 0x69, 0x78, 0x7b, 0x7e, 0x7d, 0x74, 0x77, 0x72, 0x71,
    0x50, 0x53, 0x56, 0x55, 0x5c, 0x5f, 0x5a, 0x59, 0x48, 0x4b, 0x4e, 0x4d, 0x44, 0x47, 0x42, 0x41,
    0xc0, 0xc3, 0xc6, 0xc5, 0xcc, 0xcf, 0xca, 0xc9, 0xd8, 0xdb, 0xde, 0xdd, 0xd4, 0xd7, 0xd2, 0xd1,
    0xf0, 0xf3, 0xf6, 0xf5, 0xfc, 0xff, 0xfa, 0xf9, 0xe8, 0xeb, 0xee, 0xed, 0xe4, 0xe7, 0xe2, 0xe1,
    0xa0, 0xa3, 0xa6, 0xa5, 0xac, 0xaf, 0xaa, 0xa9, 0xb8, 0xbb, 0xbe, 0xbd, 0xb4, 0xb7, 0xb2, 0xb1,
    0x90, 0x93, 0x96, 0x95, 0x9c, 0x9f, 0x9a, 0x99, 0x88, 0x8b, 0x8e, 0x8d, 0x84, 0x87, 0x82, 0x81,
    0x9b, 0x98, 0x9d, 0x9e, 0x97, 0x94, 0x91, 0x92, 0x83, 0x80, 0x85, 0x86, 0x8f, 0x8c, 0x89, 0x8a,
    0xab, 0xa8, 0xad, 0xae, 0xa7, 0xa4, 0xa1, 0xa2, 0xb3, 0xb0, 0xb5, 0xb6, 0xbf, 0xbc, 0xb9, 0xba,
    0xfb, 0xf8, 0xfd, 0xfe, 0xf7, 0xf4, 0xf1, 0xf2, 0xe3, 0xe0, 0xe5, 0xe6, 0xef, 0xec, 0xe9, 0xea,
    0xcb, 0xc8, 0xcd, 0xce, 0xc7, 0xc4, 0xc1, 0xc2, 0xd3, 0xd0, 0xd5, 0xd6, 0xdf, 0xdc, 0xd9, 0xda,
    0x5b, 0x58, 0x5d, 0x5e, 0x57, 0x54, 0x51, 0x52, 0x43, 0x40, 0x45, 0x46, 0x4f, 0x4c, 0x49, 0x4a,
    0x6b, 0x68, 0x6d, 0x6e, 0x67, 0x64, 0x61, 0x62, 0x73, 0x70, 0x75, 0x76, 0x7f, 0x7c, 0x79, 0x7a,
    0x3b, 0x38, 0x3d, 0x3e, 0x37, 0x34, 0x31, 0x32, 0x23, 0x20, 0x25, 0x26, 0x2f, 0x2c, 0x29, 0x2a,
    0x0b, 0x08, 0x0d, 0x0e, 0x07, 0x04, 0x01, 0x02, 0x13, 0x10, 0x15, 0x16, 0x1f, 0x1c, 0x19, 0x1a]

def aesMul9 : List UInt8 :=
  [0x00, 0x09, 0x12, 0x1b, 0x24, 0x2d, 0x36, 0x3f, 0x48, 0x41, 0x5a, 0x53, 0x6c, 0x65, 0x7e, 0x77,
    0x90, 0x99, 0x82, 0x8b, 0xb4, 0xbd, 0xa6, 0xaf, 0xd8, 0xd1, 0xca, 0xc3, 0xfc, 0xf5, 0xee, 0xe7,
    0x3b, 0x32, 0x29, 0x20, 0x1f, 0x16, 0x0d, 0x04, 0x73, 0x7a, 0x61, 0x68, 0x57, 0x5e, 0x45, 0x4c,
    0xab, 0xa2, 0xb9, 0xb0, 0x8f, 0x86, 0x9d, 0x94, 0xe3, 0xea, 0xf1, 0xf8, 0xc7, 0xce, 0xd5, 0xdc,
    0x76, 0x7f, 0x64, 0x6d, 0x52, 0x5b, 0x40, 0x49, 0x3e, 0x37, 0x2c, 0x25, 0x1a, 0x13, 0x08, 0x01,
    0xe6, 0xef, 0xf4, 0xfd, 0xc2, 0xcb, 0xd0, 0xd9, 0xae, 0xa7, 0xbc, 0xb5, 0x8a, 0x83, 0x98, 0x91,
    0x4d, 0x44, 0x5f, 0x56, 0x69, 0x60, 0x7b, 0x72, 0x05, 0x0c, 0x17, 0x1e, 0x21, 0x28, 0x33, 0x3a,
    0xdd, 0xd4, 0xcf, 0xc6, 0xf9, 0xf0, 0xeb, 0xe2, 0x95, 0x9c, 0x87, 0x8e, 0xb1, 0xb8, 0xa3, 0xaa,
    0xec, 0xe5, 0xfe, 0xf7, 0xc8, 0xc1, 0xda, 0xd3, 0xa4, 0xad, 0xb6, 0xbf, 0x80, 0x89, 0x92, 0x9b,
    0x7c, 0x75, 0x6e, 0x67, 0x58, 0x51, 0x4a, 0x43, 0x34, 0x3d, 0x26, 0x2f, 0x10, 0x19, 0x02, 0x0b,
    0xd7, 0xde, 0xc5, 0xcc, 0xf3, 0xfa, 0xe1, 0xe8, 0x9f, 0x96, 0x8d, 0x84, 0xbb, 0xb2, 0xa9, 0xa0,
    0x47, 0x4e, 0x55, 0x5c, 0x63, 0x6a, 0x71, 0x78, 0x0f, 0x06, 0x1d, 0x14, 0x2b, 0x22, 0x39, 0x30,
    0x9a, 0x93, 0x88, 0x81, 0xbe, 0xb7, 0xac, 0xa5, 0xd2, 0xdb, 0xc0, 0xc9, 0xf6, 0xff, 0xe4, 0xed,
    0x0a, 0x03, 0x18, 0x11, 0x2e, 0x27, 0x3c, 0x35, 0x42, 0x4b, 0x50, 0x59, 0x66, 0x6f, 0x74, 0x7d,
    0xa1, 0xa8, 0xb3, 0xba, 0x85, 0x8c, 0x97, 0x9e, 0xe9, 0xe0, 0xfb, 0xf2, 0xcd, 0xc4, 0xdf, 0xd6,
    0x31, 0x38, 0x23, 0x2a, 0x15, 0x1c, 0x07, 0x0e, 0x79, 0x70, 0x6b, 0x62, 0x5d, 0x54, 0x4f, 0x46]

def aesMulB : List UInt8 :=
  [0x00, 0x0b, 0x16, 0x1d, 0x2c, 0x27, 0x3a, 0x31, 0x58, 0x53, 0x4e, 0x45, 0x74, 0x7f, 0x62, 0x69,
    0xb0, 0xbb, 0xa6, 0xad, 0x9c, 0x97, 0x8a, 0x81, 0xe8, 0xe3, 0xfe, 0xf5, 0xc4, 0xcf, 0xd2, 0xd9,
    0x7b, 0x70, 0x6d, 0x66, 0x57, 0x5c, 0x41, 0x4a, 0x23, 0x28, 0x35, 0x3e, 0x0f, 0x04, 0x19, 0x12,
    0xcb, 0xc0, 0xdd, 0xd6, 0xe7, 0xec, 0xf1, 0xfa, 0x93, 0x98, 0x85, 0x8e, 0xbf, 0xb4, 0xa9, 0xa2,
    0xf6, 0xfd, 0xe0, 0xeb, 0xda, 0xd1, 0xcc, 0xc7, 0xae, 0xa5, 0xb8, 0xb3, 0x82, 0x89, 0x94, 0x9f,
    0x46, 0x4d, 0x50, 0x5b, 0x6a, 0x61, 0x7c, 0x77, 0x1e, 0x15, 0x08, 0x03, 0x32, 0x39, 0x24, 0x2f,
    0x8d, 0x86, 0x9b, 0x90, 0xa1, 0xaa, 0xb7, 0xbc, 0xd5, 0xde, 0xc3, 0xc8, 0xf9, 0xf2, 0xef, 0xe4,
    0x3d, 0x36, 0x2b, 0x20, 0x11, 0x1a, 0x07, 0x0c, 0x65, 0x6e, 0x73, 0x78, 0x49, 0x42, 0x5f, 0x54,
    0xf7, 0xfc, 0xe1, 0xea, 0xdb, 0xd0, 0xcd, 0xc6, 0xaf, 0xa4, 0xb9, 0xb2, 0x83, 0x88, 0x95, 0x9e,
    0x47, 0x4c, 0x51, 0x5a, 0x6b, 0x60, 0x7d, 0x76, 0x1f, 0x14, 0x09, 0x02, 0x33, 0x38, 0x25, 0x2e,
    0x8c, 0x87, 0x9a, 0x91, 0xa0, 0xab, 0xb6, 0xbd, 0xd4, 0xdf, 0xc2, 0xc9, 0xf8, 0xf3, 0xee, 0xe5,
    0x3c, 0x37, 0x2a, 0x21, 0x10, 0x1b, 0x06, 0x0d, 0x64, 0x6f, 0x72, 0x79, 0x48, 0x43, 0x5e, 0x55,
    0x01, 0x0a, 0x17, 0x1c, 0x2d, 0x26, 0x3b, 0x30, 0x59, 0x52, 0x4f, 0x44, 0x75, 0x7e, 0x63, 0x68,
    0xb1, 0xba, 0xa7, 0xac, 0x9d, 0x96, 0x8b, 0x80, 0xe9, 0xe2, 0xff, 0xf4, 0xc5, 0xce, 0xd3, 0xd8,
    0x7a, 0x71, 0x6c, 0x67, 0x56, 0x5d, 0x40, 0x4b, 0x22, 0x29, 0x34, 0x3f, 0x0e, 0x05, 0x18, 0x13,
    0xca, 0xc1, 0xdc, 0xd7, 0xe6, 0xed, 0xf0, 0xfb, 0x92, 0x99, 0x84, 0x8f, 0xbe, 0xb5, 0xa8, 0xa3]

def aesMulD : List UInt8 :=
  [0x00, 0x0d, 0x1a, 0x17, 0x34, 0x39, 0x2e, 0x23, 0x68, 0x65, 0x72, 0x7f, 0x5c, 0x51, 0x46, 0x4b,
    0xd0, 0xdd, 0xca, 0xc7, 0xe4, 0xe9, 0xfe, 0xf3, 0xb8, 0xb5, 0xa2, 0xaf, 0x8c, 0x81, 0x96, 0x9b,
    0xbb, 0xb6, 0xa1, 0xac, 0x8f, 0x82, 0x95, 0x98, 0xd3, 0xde, 0xc9, 0xc4, 0xe7, 0xea, 0xfd, 0xf0,
    0x6b, 0x66, 0x71, 0x7c, 0x5f, 0x52, 0x45, 0x48, 0x03, 0x0e, 0x19, 0x14, 0x37, 0x3a, 0x2d, 0x20,
    0x6d, 0x60, 0x77, 0x7a, 0x59, 0x54, 0x43, 0x4e, 0x05, 0x08, 0x1f, 0x12, 0x31, 0x3c, 0x2b, 0x26,
    0xbd, 0xb0, 0xa7, 0xaa, 0x89, 0x84, 0x93, 0x9e, 0xd5, 0xd8, 0xcf, 0xc2, 0xe1, 0xec, 0xfb, 0xf6,
    0xd6, 0xdb, 0xcc, 0xc1, 0xe2, 0xef, 0xf8, 0xf5, 0xbe, 0xb3, 0xa4, 0xa9, 0x8a, 0x87, 0x90, 0x9d,
    0x06, 0x0b, 0x1c, 0x11, 0x32, 0x3f, 0x28, 0x25, 0x6e, 0x63, 0x74, 0x79, 0x5a, 0x57, 0x40, 0x4d,
    0xda, 0xd7, 0xc0, 0xcd, 0xee, 0xe3, 0xf4, 0xf9, 0xb2, 0xbf, 0xa8, 0xa5, 0x86, 0x8b, 0x9c, 0x91,
    0x0a, 0x07, 0x10, 0x1d, 0x3e, 0x33, 0x24, 0x29, 0x62, 0x6f, 0x78, 0x75, 0x56, 0x5b, 0x4c, 0x41,
    0x61, 0x6c, 0x7b, 0x76, 0x55, 0x58, 0x4f, 0x42, 0x09, 0x04, 0x13, 0x1e, 0x3d, 0x30, 0x27, 0x2a,
    0xb1, 0xbc, 0xab, 0xa6, 0x85, 0x88, 0x9f, 0x92, 0xd9, 0xd4, 0xc3, 0xce, 0xed, 0xe0, 0xf7, 0xfa,
    0xb7, 0xba, 0xad, 0xa0, 0x83, 0x8e, 0x99, 0x94, 0xdf, 0xd2, 0xc5, 0xc8, 0xeb, 0xe6, 0xf1, 0xfc,
    0x67, 0x6a, 0x7d, 0x70, 0x53, 0x5e, 0x49, 0x44, 0x0f, 0x02, 0x15, 0x18, 0x3b, 0x36, 0x21, 0x2c,
    0x0c, 0x01, 0x16, 0x1b, 0x38, 0x35, 0x22, 0x2f, 0x64, 0x69, 0x7e, 0x73, 0x50, 0x5d, 0x4a, 0x47,
    0xdc, 0xd1, 0xc6, 0xcb, 0xe8, 0xe5, 0xf2, 0xff, 0xb4, 0xb9, 0xae, 0xa3, 0x80, 0x8d, 0x9a, 0x97]

def aesMulE : List UInt8 :=
  [0x00, 0x0e, 0x1c, 0x12, 0x38, 0x36, 0x24, 0x2a, 0x70, 0x7e, 0x6c, 0x62, 0x48, 0x46, 0x54, 0x5a,
    0xe0, 0xee, 0xfc, 0xf2, 0xd8, 0xd6, 0xc4, 0xca, 0x90, 0x9e, 0x8c, 0x82, 0xa8, 0xa6, 0xb4, 0xba,
    0xdb, 0xd5, 0xc7, 0xc9, 0xe3, 0xed, 0xff, 0xf1, 0xab, 0xa5, 0xb7, 0xb9, 0x93, 0x9d, 0x8f, 0x81,
    0x3b, 0x35, 0x27, 0x29, 0x03, 0x0d, 0x1f, 0x11, 0x4b, 0x45, 0x57, 0x59, 0x73, 0x7d, 0x6f, 0x61,
    0xad, 0xa3, 0xb1, 0xbf, 0x95, 0x9b, 0x89, 0x87, 0xdd, 0xd3, 0xc1, 0xcf, 0xe5, 0xeb, 0xf9, 0xf7,
    0x4d, 0x43, 0x51, 0x5f, 0x75, 0x7b, 0x69, 0x67, 0x3d, 0x33, 0x21, 0x2f, 0x05, 0x0b, 0x19, 0x17,
    0x76, 0x78, 0x6a, 0x64, 0x4e, 0x40, 0x52, 0x5c, 0x06, 0x08, 0x1a, 0x14, 0x3e, 0x30, 0x22, 0x2c,
    0x96, 0x98, 0x8a, 0x84, 0xae, 0xa0, 0xb2, 0xbc, 0xe6, 0xe8, 0xfa, 0xf4, 0xde, 0xd0, 0xc2, 0xcc,
    0x41, 0x4f, 0x5d, 0x53, 0x79, 0x77, 0x65, 0x6b, 0x31, 0x3f, 0x2d, 0x23, 0x09, 0x07, 0x15, 0x1b,
    0xa1, 0xaf, 0xbd, 0xb3, 0x99, 0x97, 0x85, 0x8b, 0xd1, 0xdf, 0xcd, 0xc3, 0xe9, 0xe7, 0xf5, 0xfb,
    0x9a, 0x94, 0x86, 0x88, 0xa2, 0xac, 0xbe, 0xb0, 0xea, 0xe4, 0xf6, 0xf8, 0xd2, 0xdc, 0xce, 0xc0,
    0x7a, 0x74, 0x66, 0x68, 0x42, 0x4c, 0x5e, 0x50, 0x0a, 0x04, 0x16, 0x18, 0x32, 0x3c, 0x2e, 0x20,
    0xec, 0xe2, 0xf0, 0xfe, 0xd4, 0xda, 0xc8, 0xc6, 0x9c, 0x92, 0x80, 0x8e, 0xa4, 0xaa, 0xb8, 0xb6,
    0x0c, 0x02, 0x10, 0x1e, 0x34, 0x3a, 0x28, 0x26, 0x7c, 0x72, 0x60, 0x6e, 0x44, 0x4a, 0x58, 0x56,
    0x37, 0x39, 0x2b, 0x25, 0x0f, 0x01, 0x13, 0x1d, 0x47, 0x49, 0x5b, 0x55, 0x7f, 0x71, 0x63, 0x6d,
    0xd7, 0xd9, 0xcb, 0xc5, 0xef, 0xe1, 0xf3, 0xfd, 0xa7, 0xa9, 0xbb, 0xb5, 0x9f, 0x91, 0x83, 0x8d]

/-- `aes_rcon` -/
def aesRcon : List UInt32 :=
  [0x00000000, 0x01000000, 0x02000000, 0x04000000, 0x08000000, 0x10000000, 0x20000000, 0x40000000,
    0x80000000, 0x1B000000, 0x36000000]

/-- A table at an octet: each has 256 places. -/
def look (table : List UInt8) (b : UInt8) : UInt8 := table.getD b.toNat 0

/-! ## 2. The state -/

/-- A column of `State`, or a word of `KeyWordExpansion`. -/
structure AesColumn where
  row0 : UInt8 := 0
  row1 : UInt8 := 0
  row2 : UInt8 := 0
  row3 : UInt8 := 0
  deriving DecidableEq

namespace AesColumn

def map (f : UInt8 → UInt8) (c : AesColumn) : AesColumn :=
  ⟨f c.row0, f c.row1, f c.row2, f c.row3⟩

def xor (c d : AesColumn) : AesColumn :=
  ⟨c.row0 ^^^ d.row0, c.row1 ^^^ d.row1, c.row2 ^^^ d.row2, c.row3 ^^^ d.row3⟩

/-- `AES_MixColumns`, on one column. -/
def mix (c : AesColumn) : AesColumn where
  row0 := look aesMul2 c.row0 ^^^ look aesMul3 c.row1 ^^^ c.row2 ^^^ c.row3
  row1 := c.row0 ^^^ look aesMul2 c.row1 ^^^ look aesMul3 c.row2 ^^^ c.row3
  row2 := c.row0 ^^^ c.row1 ^^^ look aesMul2 c.row2 ^^^ look aesMul3 c.row3
  row3 := look aesMul3 c.row0 ^^^ c.row1 ^^^ c.row2 ^^^ look aesMul2 c.row3

/-- `AES_InvMixColumns`, on one column. -/
def invMix (c : AesColumn) : AesColumn where
  row0 :=
    look aesMulE c.row0 ^^^ look aesMulB c.row1 ^^^ look aesMulD c.row2 ^^^ look aesMul9 c.row3
  row1 :=
    look aesMul9 c.row0 ^^^ look aesMulE c.row1 ^^^ look aesMulB c.row2 ^^^ look aesMulD c.row3
  row2 :=
    look aesMulD c.row0 ^^^ look aesMul9 c.row1 ^^^ look aesMulE c.row2 ^^^ look aesMulB c.row3
  row3 :=
    look aesMulB c.row0 ^^^ look aesMulD c.row1 ^^^ look aesMul9 c.row2 ^^^ look aesMulE c.row3

end AesColumn

/-- `State`, or the four words of a round key. -/
structure AesState where
  col0 : AesColumn
  col1 : AesColumn
  col2 : AesColumn
  col3 : AesColumn
  deriving DecidableEq

namespace AesState

/-- A block, taken column by column. -/
def ofBlock (block : Octets 16) : AesState where
  col0 := ⟨block.get 0, block.get 1, block.get 2, block.get 3⟩
  col1 := ⟨block.get 4, block.get 5, block.get 6, block.get 7⟩
  col2 := ⟨block.get 8, block.get 9, block.get 10, block.get 11⟩
  col3 := ⟨block.get 12, block.get 13, block.get 14, block.get 15⟩

def toBlock (s : AesState) : Octets 16 :=
  ⟨[s.col0.row0, s.col0.row1, s.col0.row2, s.col0.row3,
    s.col1.row0, s.col1.row1, s.col1.row2, s.col1.row3,
    s.col2.row0, s.col2.row1, s.col2.row2, s.col2.row3,
    s.col3.row0, s.col3.row1, s.col3.row2, s.col3.row3], rfl⟩

def mapColumns (f : AesColumn → AesColumn) (s : AesState) : AesState :=
  ⟨f s.col0, f s.col1, f s.col2, f s.col3⟩

/-- `AES_SubBytes` and `AES_InvSubBytes` -/
def subBytes (s : AesState) : AesState := s.mapColumns (.map (look aesSboxEnc))
def invSubBytes (s : AesState) : AesState := s.mapColumns (.map (look aesSboxDec))

/-- `AES_ShiftRows`: row `i` is rotated by `i` columns. -/
def shiftRows (s : AesState) : AesState where
  col0 := ⟨s.col0.row0, s.col1.row1, s.col2.row2, s.col3.row3⟩
  col1 := ⟨s.col1.row0, s.col2.row1, s.col3.row2, s.col0.row3⟩
  col2 := ⟨s.col2.row0, s.col3.row1, s.col0.row2, s.col1.row3⟩
  col3 := ⟨s.col3.row0, s.col0.row1, s.col1.row2, s.col2.row3⟩

/-- `AES_InvShiftRows` -/
def invShiftRows (s : AesState) : AesState where
  col0 := ⟨s.col0.row0, s.col3.row1, s.col2.row2, s.col1.row3⟩
  col1 := ⟨s.col1.row0, s.col0.row1, s.col3.row2, s.col2.row3⟩
  col2 := ⟨s.col2.row0, s.col1.row1, s.col0.row2, s.col3.row3⟩
  col3 := ⟨s.col3.row0, s.col2.row1, s.col1.row2, s.col0.row3⟩

def mixColumns (s : AesState) : AesState := s.mapColumns .mix
def invMixColumns (s : AesState) : AesState := s.mapColumns .invMix

/-- `AES_AddRoundKey` -/
def addRoundKey (s key : AesState) : AesState :=
  ⟨s.col0.xor key.col0, s.col1.xor key.col1, s.col2.xor key.col2, s.col3.xor key.col3⟩

end AesState

/-! ## 3. The cipher -/

/-- `TempWord` for the word `KeyIndex`, from the word before it. -/
def aesTempWord (keyIndex : Nat) (w : AesColumn) : AesColumn :=
  if keyIndex % 4 = 0 then
    let rcon := aesRcon.getD (keyIndex / 4) 0
    { row0 := look aesSboxEnc w.row1 ^^^ (rcon >>> 24).toUInt8
      row1 := look aesSboxEnc w.row2 ^^^ (rcon >>> 16).toUInt8
      row2 := look aesSboxEnc w.row3 ^^^ (rcon >>> 8).toUInt8
      row3 := look aesSboxEnc w.row0 ^^^ rcon.toUInt8 }
  else w

/-- One pass of the second loop of `RT_AES_KeyExpansion`; the list is the words so far, last
first. -/
def aesNextWord (words : List AesColumn) : List AesColumn :=
  (words.getD 3 {}).xor (aesTempWord words.length (words.getD 0 {})) :: words

/-- `RT_AES_KeyExpansion`: the 44 words of `KeyWordExpansion`. -/
def rtAesKeyExpansion (key : Octets 16) : List AesColumn :=
  let k := AesState.ofBlock key
  (Cipher.rounds (fun _ => aesNextWord) [k.col3, k.col2, k.col1, k.col0] (List.range 40)).reverse

/-- The words of `KeyWordExpansion` that are added in a round. -/
def aesRoundKey (words : List AesColumn) (round : Nat) : AesState :=
  let word := fun i => words.getD (round * 4 + i) {}
  ⟨word 0, word 1, word 2, word 3⟩

/-- The body of the round loop of `RT_AES_Encrypt`. -/
def aesEncryptRound (words : List AesColumn) (round : Nat) (s : AesState) : AesState :=
  s.subBytes.shiftRows.mixColumns.addRoundKey (aesRoundKey words round)

/-- `RT_AES_Encrypt` -/
def rtAesEncrypt (key plainBlock : Octets 16) : Octets 16 :=
  let words := rtAesKeyExpansion key
  let s := (AesState.ofBlock plainBlock).addRoundKey (aesRoundKey words 0)
  let s := Cipher.rounds (aesEncryptRound words) s (List.range' 1 9)
  (s.subBytes.shiftRows.addRoundKey (aesRoundKey words 10)).toBlock

/-- The body of the round loop of `RT_AES_Decrypt`. -/
def aesDecryptRound (words : List AesColumn) (round : Nat) (s : AesState) : AesState :=
  (s.invShiftRows.invSubBytes.addRoundKey (aesRoundKey words round)).invMixColumns

/-- `RT_AES_Decrypt`; its loop runs down. -/
def rtAesDecrypt (key cipherBlock : Octets 16) : Octets 16 :=
  let words := rtAesKeyExpansion key
  let s := (AesState.ofBlock cipherBlock).addRoundKey (aesRoundKey words 10)
  let s := Cipher.rounds (aesDecryptRound words) s (List.range' 1 9).reverse
  (s.invShiftRows.invSubBytes.addRoundKey (aesRoundKey words 0)).toBlock

/-! ## 4. The tables as arithmetic -/

/-- A table that lists the values of a function is that function. -/
theorem look_eq {table : List UInt8} {f : UInt8 → UInt8}
    (h : table = (List.range 256).map fun i => f (UInt8.ofNat i)) (b : UInt8) :
    look table b = f b := by
  have hb : b.toNat < 256 := b.toNat_lt
  rw [h, look]
  simp [hb]

/-- Multiplication by the generator of the field. -/
def xtime (b : UInt8) : UInt8 := (b <<< 1) ^^^ (if b.toBitVec.msb then 0x1b else 0)

/-- **It is additive.** -/
theorem xtime_xor (a b : UInt8) : xtime (a ^^^ b) = xtime a ^^^ xtime b := by
  have hshift : (a ^^^ b) <<< 1 = (a <<< 1) ^^^ (b <<< 1) := UInt8.shiftLeft_xor
  have hmsb : (a ^^^ b).toBitVec.msb = (a.toBitVec.msb ^^ b.toBitVec.msb) := by simp
  rw [xtime, xtime, xtime, hshift, hmsb]
  cases a.toBitVec.msb with
  | false => cases b.toBitVec.msb <;> simp [UInt8.xor_assoc]
  | true =>
    cases b.toBitVec.msb with
    | false =>
      simp only [Bool.true_xor, Bool.not_false, if_true, Bool.false_eq_true, if_false,
        UInt8.xor_zero]
      ac_rfl
    | true =>
      have hpair : ∀ x y z : UInt8, (x ^^^ z) ^^^ (y ^^^ z) = x ^^^ y := fun x y z => by
        rw [UInt8.xor_comm y z, UInt8.xor_assoc, ← UInt8.xor_assoc z, UInt8.xor_self,
          UInt8.zero_xor]
      simp [hpair]

/-- A table as one number. -/
def packed : List UInt8 → Nat
  | [] => 0
  | b :: table => b.toNat + 256 * packed table

theorem toNat_getD (table : List UInt8) (i : Nat) :
    (table.getD i 0).toNat = packed table / 256 ^ i % 256 := by
  induction table generalizing i with
  | nil => simp [packed]
  | cons b table ih =>
    have hb : b.toNat < 256 := b.toNat_lt
    cases i with
    | zero =>
      rw [List.getD_cons_zero, packed, Nat.pow_zero, Nat.div_one]
      omega
    | succ i =>
      have htail : (b.toNat + 256 * packed table) / 256 = packed table := by omega
      rw [List.getD_cons_succ, ih, packed, Nat.pow_succ', ← Nat.div_div_eq_div_mul, htail]

/-- What the kernel computes of the tables, all of it at once. -/
theorem tables_eq :
    (∀ i < 256, packed aesSboxDec / 256 ^ (packed aesSboxEnc / 256 ^ i % 256) % 256 = i) ∧
    aesMul2 = (List.range 256).map (fun i => xtime (UInt8.ofNat i)) ∧
    aesMul3 = (List.range 256).map (fun i => xtime (UInt8.ofNat i) ^^^ UInt8.ofNat i) ∧
    aesMul9 = (List.range 256).map (fun i =>
      xtime (xtime (xtime (UInt8.ofNat i))) ^^^ UInt8.ofNat i) ∧
    aesMulB = (List.range 256).map (fun i =>
      xtime (xtime (xtime (UInt8.ofNat i))) ^^^ xtime (UInt8.ofNat i) ^^^ UInt8.ofNat i) ∧
    aesMulD = (List.range 256).map (fun i =>
      xtime (xtime (xtime (UInt8.ofNat i))) ^^^ xtime (xtime (UInt8.ofNat i)) ^^^ UInt8.ofNat i) ∧
    aesMulE = (List.range 256).map (fun i => xtime (xtime (xtime (UInt8.ofNat i))) ^^^
      xtime (xtime (UInt8.ofNat i)) ^^^ xtime (UInt8.ofNat i)) := by
  decide +kernel

theorem look_aesSboxDec (b : UInt8) : look aesSboxDec (look aesSboxEnc b) = b := by
  rw [← UInt8.toNat_inj, look, toNat_getD, look, toNat_getD, tables_eq.1 b.toNat b.toNat_lt]

theorem look_aesMul2 (b : UInt8) : look aesMul2 b = xtime b := look_eq tables_eq.2.1 b

theorem look_aesMul3 (b : UInt8) : look aesMul3 b = xtime b ^^^ b :=
  look_eq (f := fun b => xtime b ^^^ b) tables_eq.2.2.1 b

theorem look_aesMul9 (b : UInt8) : look aesMul9 b = xtime (xtime (xtime b)) ^^^ b :=
  look_eq (f := fun b => xtime (xtime (xtime b)) ^^^ b) tables_eq.2.2.2.1 b

theorem look_aesMulB (b : UInt8) : look aesMulB b = xtime (xtime (xtime b)) ^^^ xtime b ^^^ b :=
  look_eq (f := fun b => xtime (xtime (xtime b)) ^^^ xtime b ^^^ b) tables_eq.2.2.2.2.1 b

theorem look_aesMulD (b : UInt8) :
    look aesMulD b = xtime (xtime (xtime b)) ^^^ xtime (xtime b) ^^^ b :=
  look_eq (f := fun b => xtime (xtime (xtime b)) ^^^ xtime (xtime b) ^^^ b)
    tables_eq.2.2.2.2.2.1 b

theorem look_aesMulE (b : UInt8) :
    look aesMulE b = xtime (xtime (xtime b)) ^^^ xtime (xtime b) ^^^ xtime b :=
  look_eq (f := fun b => xtime (xtime (xtime b)) ^^^ xtime (xtime b) ^^^ xtime b)
    tables_eq.2.2.2.2.2.2 b

/-- A table that is a sum of iterated doublings is additive. -/
theorem look_xor (a b : UInt8) :
    look aesMul2 (a ^^^ b) = look aesMul2 a ^^^ look aesMul2 b ∧
    look aesMul3 (a ^^^ b) = look aesMul3 a ^^^ look aesMul3 b ∧
    look aesMul9 (a ^^^ b) = look aesMul9 a ^^^ look aesMul9 b ∧
    look aesMulB (a ^^^ b) = look aesMulB a ^^^ look aesMulB b ∧
    look aesMulD (a ^^^ b) = look aesMulD a ^^^ look aesMulD b ∧
    look aesMulE (a ^^^ b) = look aesMulE a ^^^ look aesMulE b := by
  simp only [look_aesMul2, look_aesMul3, look_aesMul9, look_aesMulB, look_aesMulD, look_aesMulE,
    xtime_xor]
  refine ⟨trivial, ?_, ?_, ?_, ?_, ?_⟩ <;> ac_rfl

/-! ## 5. Each layer is undone -/

namespace AesColumn

/-- Adding twice adds nothing. -/
@[simp] theorem xor_xor (c d : AesColumn) : (c.xor d).xor d = c := by
  simp [xor, UInt8.xor_assoc]

theorem mix_xor (c d : AesColumn) : (c.xor d).mix = c.mix.xor d.mix := by
  simp only [mix, xor, look_xor, mk.injEq]
  refine ⟨?_, ?_, ?_, ?_⟩ <;> ac_rfl

theorem invMix_xor (c d : AesColumn) : (c.xor d).invMix = c.invMix.xor d.invMix := by
  simp only [invMix, xor, look_xor, mk.injEq]
  refine ⟨?_, ?_, ?_, ?_⟩ <;> ac_rfl

/-- **`AES_InvMixColumns` undoes `AES_MixColumns`.** Both are additive, so it is enough to see it on
the columns with one octet; there, all doublings but one occur in pairs. -/
theorem invMix_mix (c : AesColumn) : c.mix.invMix = c := by
  have hcancel : ∀ a b : UInt8, a ^^^ (a ^^^ b) = b := fun a b => by
    rw [← UInt8.xor_assoc, UInt8.xor_self, UInt8.zero_xor]
  have hcomm : ∀ a b d : UInt8, a ^^^ (b ^^^ d) = b ^^^ (a ^^^ d) := fun a b d => by ac_rfl
  have hzero : xtime 0 = 0 := rfl
  have hunit : ∀ b, (mk b 0 0 0).mix.invMix = mk b 0 0 0 ∧ (mk 0 b 0 0).mix.invMix = mk 0 b 0 0 ∧
      (mk 0 0 b 0).mix.invMix = mk 0 0 b 0 ∧ (mk 0 0 0 b).mix.invMix = mk 0 0 0 b := by
    intro b
    simp only [mix, invMix, look_aesMul2, look_aesMul3, look_aesMul9, look_aesMulB, look_aesMulD,
      look_aesMulE, xtime_xor, hzero, mk.injEq]
    simp [UInt8.xor_assoc, UInt8.xor_comm, hcomm, hcancel]
  have hsum : ((((mk c.row0 0 0 0).xor (mk 0 c.row1 0 0)).xor (mk 0 0 c.row2 0)).xor
      (mk 0 0 0 c.row3)) = c := by
    simp [xor]
  rw [← hsum]
  simp only [mix_xor, invMix_xor, hunit]

end AesColumn

namespace AesState

@[simp] theorem toBlock_ofBlock : ∀ block : Octets 16, (ofBlock block).toBlock = block
  | ⟨[_, _, _, _, _, _, _, _, _, _, _, _, _, _, _, _], _⟩ => rfl

@[simp] theorem ofBlock_toBlock (s : AesState) : ofBlock s.toBlock = s := rfl

@[simp] theorem invSubBytes_subBytes (s : AesState) : s.subBytes.invSubBytes = s := by
  simp [invSubBytes, subBytes, mapColumns, AesColumn.map, look_aesSboxDec]

@[simp] theorem invShiftRows_shiftRows (s : AesState) : s.shiftRows.invShiftRows = s := rfl

@[simp] theorem invMixColumns_mixColumns (s : AesState) : s.mixColumns.invMixColumns = s := by
  simp [invMixColumns, mixColumns, mapColumns, AesColumn.invMix_mix]

@[simp] theorem addRoundKey_addRoundKey (s key : AesState) :
    (s.addRoundKey key).addRoundKey key = s := by
  simp [addRoundKey]

end AesState

/-- A round of the cipher between two halves of another: what `RT_AES_Decrypt` undoes in one pass. -/
def aesMiddleRound (words : List AesColumn) (round : Nat) (s : AesState) : AesState :=
  (s.mixColumns.addRoundKey (aesRoundKey words round)).subBytes.shiftRows

theorem aesDecryptRound_aesMiddleRound (words : List AesColumn) (round : Nat) (s : AesState) :
    aesDecryptRound words round (aesMiddleRound words round s) = s := by
  simp [aesDecryptRound, aesMiddleRound]

/-- The cipher with an expanded key, in any number of rounds. -/
def aesEncryptBlock (words : List AesColumn) (numberOfRound : Nat) (plainBlock : Octets 16) :
    Octets 16 :=
  let s := (AesState.ofBlock plainBlock).addRoundKey (aesRoundKey words 0)
  let s := Cipher.rounds (aesEncryptRound words) s (List.range' 1 (numberOfRound - 1))
  (s.subBytes.shiftRows.addRoundKey (aesRoundKey words numberOfRound)).toBlock

/-- The inverse cipher with an expanded key. -/
def aesDecryptBlock (words : List AesColumn) (numberOfRound : Nat) (cipherBlock : Octets 16) :
    Octets 16 :=
  let s := (AesState.ofBlock cipherBlock).addRoundKey (aesRoundKey words numberOfRound)
  let s := Cipher.rounds (aesDecryptRound words) s (List.range' 1 (numberOfRound - 1)).reverse
  (s.invShiftRows.invSubBytes.addRoundKey (aesRoundKey words 0)).toBlock

/-- **With the same words decryption undoes encryption**, whatever they are. The rounds are
regrouped, so that each begins with the mixing of the one before; run down, the passes of the
decryption are their inverses. -/
theorem aesDecryptBlock_aesEncryptBlock (words : List AesColumn) (nr : Nat) (block : Octets 16) :
    aesDecryptBlock words nr (aesEncryptBlock words nr block) = block := by
  set first := (AesState.ofBlock block).addRoundKey (aesRoundKey words 0) with hfirst
  have hregroup :
      (Cipher.rounds (aesEncryptRound words) first (List.range' 1 (nr - 1))).subBytes.shiftRows =
        Cipher.rounds (aesMiddleRound words) first.subBytes.shiftRows (List.range' 1 (nr - 1)) :=
    Cipher.rounds_comm (fun s : AesState => s.subBytes.shiftRows) fun _ _ => rfl
  have hundo : Cipher.rounds (aesDecryptRound words)
      (Cipher.rounds (aesMiddleRound words) first.subBytes.shiftRows (List.range' 1 (nr - 1)))
      (List.range' 1 (nr - 1)).reverse = first.subBytes.shiftRows :=
    Cipher.rounds_undo (fun _ => True) (fun _ _ _ _ => trivial)
      (fun round _ s _ => aesDecryptRound_aesMiddleRound words round s) trivial
  simp only [aesDecryptBlock, aesEncryptBlock, ← hfirst, hregroup, hundo,
    AesState.ofBlock_toBlock, AesState.addRoundKey_addRoundKey, AesState.invShiftRows_shiftRows,
    AesState.invSubBytes_subBytes]
  rw [hfirst, AesState.addRoundKey_addRoundKey, AesState.toBlock_ofBlock]

theorem rtAesDecrypt_rtAesEncrypt (key plainBlock : Octets 16) :
    rtAesDecrypt key (rtAesEncrypt key plainBlock) = plainBlock :=
  aesDecryptBlock_aesEncryptBlock (rtAesKeyExpansion key) 10 plainBlock

/-! ## 6. AES-CMAC -/

def xorBlock (l : List UInt8) (x : Octets 16) : Octets 16 :=
  .ofList 16 (List.zipWith (· ^^^ ·) l x.toList)

/-- `Const_Rb` -/
def constRb : List UInt8 := List.replicate 15 0 ++ [0x87]

/-- Steps 2 and 3 of `AES_CMAC_GenerateSubKey`: one bit to the left, and what falls out comes back
as `Const_Rb`. -/
def aesCmacShift (k : Octets 16) : Octets 16 :=
  let shifted : Octets 16 := .ofList 16
    (List.zipWith (fun b next : UInt8 => (b <<< 1) ||| (next >>> 7)) k.toList (k.toList.tail ++ [0]))
  if k.get 0 &&& 0x80 > 0 then xorBlock constRb shifted else shifted

/-- `AES_CMAC_GenerateSubKey` -/
def aesCmacGenerateSubKey (key : Octets 16) : Octets 16 × Octets 16 :=
  let subKey1 := aesCmacShift (rtAesEncrypt key (.zero 16))
  (subKey1, aesCmacShift subKey1)

/-- `AES_CMAC`: every block but the last, then the last, which may be empty. -/
def aesCmac (key : Octets 16) (plainText : List UInt8) : Octets 16 :=
  let subKeys := aesCmacGenerateSubKey key
  let whole := (plainText.length - 1) / 16
  let x := Cipher.rounds (fun i x => rtAesEncrypt key (xorBlock (Mem.read plainText (16 * i) 16) x))
    (.zero 16) (List.range whole)
  let last := plainText.drop (16 * whole)
  rtAesEncrypt key
    (if last.length = 16 then xorBlock last (xorBlock x.toList subKeys.1)
    else xorBlock ((last ++ [0x80]).takeD 16 0) (xorBlock x.toList subKeys.2))

end Mt7601.Crypt
